import Gatehouse.Proofs.Lookup
import Gatehouse.Proofs.RateLimit.Bucket
import Gatehouse.RateLimit.Limiter
import Mathlib.Data.List.Nodup

/-!
# A limiter that callers share

A call of a limiter is two steps: it finds the bucket of its key, which is created unless there is
one, and takes from the bucket that it has found. Between the two other calls may do anything.
`Sharing` is a limiter with the calls that are between their steps, `step` is what one of the steps
does, and `run` takes steps in any order. `Sound` is what every run keeps: the buckets are those
that were created, one for each key, and each is as the calls under its key alone leave a new one.
-/

namespace Gatehouse.Limiter

/-! ## Lists with one entry for each key -/

section Entries

variable {β γ : Type} {entries : List (String × β)} {key : String} {value : β} {place : Nat}

/-- The entry of a key is changed by changing what is at its place. -/
theorem set_map {f g : String × β → γ} (hnodup : (entries.map Prod.fst).Nodup)
    (h : entries[place]? = some (key, value)) (hsame : ∀ e ∈ entries, e.1 ≠ key → g e = f e) :
    (entries.map f).set place (g (key, value)) = entries.map g := by
  induction entries generalizing place with
  | nil => cases h
  | cons e entries ih =>
    rw [List.map_cons, List.nodup_cons] at hnodup
    cases place with
    | zero =>
      cases h
      have hothers : entries.map f = entries.map g := by
        apply List.map_congr_left
        intro e he
        refine (hsame e (List.mem_cons_of_mem _ he) fun heq => hnodup.1 ?_).symm
        exact List.mem_map.mpr ⟨e, he, heq⟩
      rw [List.map_cons, List.map_cons, List.set_cons_zero, hothers]
    | succ place =>
      have hmem : (key, value) ∈ entries := List.mem_of_getElem? h
      have hne : e.1 ≠ key := by
        intro heq
        exact hnodup.1 (heq ▸ List.mem_map_of_mem hmem)
      rw [List.map_cons, List.map_cons, List.set_cons_succ, hsame e List.mem_cons_self hne,
        ih hnodup.2 h fun e he => hsame e (List.mem_cons_of_mem _ he)]

end Entries

/-! ## What calls are answered -/

/-- What a call was answered, and at which instant it took from its bucket. -/
structure Answer where
  caller : Nat
  key : String
  instant : Duration
  decision : Decision
  deriving DecidableEq, Repr

namespace Answer

/-- The instants at which calls took from the bucket of a key. -/
def instants (key : String) (answers : List Answer) : List Duration :=
  (answers.filter (·.key == key)).map (·.instant)

/-- The decisions under a key. -/
def decisions (key : String) (answers : List Answer) : List Decision :=
  (answers.filter (·.key == key)).map (·.decision)

theorem filter_concat (key : String) (answers : List Answer) (a : Answer) :
    (answers ++ [a]).filter (·.key == key) =
      answers.filter (·.key == key) ++ if a.key = key then [a] else [] := by
  rw [List.filter_append, List.filter_singleton]
  by_cases hkey : a.key = key
  · rw [if_pos hkey, beq_iff_eq.mpr hkey, cond_true]
  · rw [if_neg hkey, beq_eq_false_iff_ne.mpr hkey, cond_false]

theorem instants_concat (key : String) (answers : List Answer) (a : Answer) :
    instants key (answers ++ [a]) =
      instants key answers ++ if a.key = key then [a.instant] else [] := by
  rw [instants, filter_concat, List.map_append, instants]
  split <;> rfl

theorem decisions_concat (key : String) (answers : List Answer) (a : Answer) :
    decisions key (answers ++ [a]) =
      decisions key answers ++ if a.key = key then [a.decision] else [] := by
  rw [decisions, filter_concat, List.map_append, decisions]
  split <;> rfl

theorem length_decisions (key : String) (answers : List Answer) :
    (decisions key answers).length = (instants key answers).length := by
  rw [decisions, instants, List.length_map, List.length_map]

end Answer

section Buckets

variable {α : Type} [Amount α] (rate : α) (burst : Nat)

/-- The bucket that takes at some instants leave of one that is created at an instant. -/
def bucketOf (since : Duration) (times : List Duration) : TokenBucket α :=
  (TokenBucket.full rate burst since).after times

/-- The decisions of takes at some instants from a bucket that is created at an instant. -/
def decisionsOf (since : Duration) (times : List Duration) : List Decision :=
  ((TokenBucket.full rate burst since).run times).map Prod.fst

/-- The buckets that were created, each as the calls under its key alone leave it. -/
def bucketsOf (created : List (String × Duration)) (answers : List Answer) :
    List (String × TokenBucket α) :=
  created.map fun (key, since) => (key, bucketOf rate burst since (Answer.instants key answers))

variable {rate burst} {created : List (String × Duration)} {answers : List Answer} {key : String}

theorem bucketOf_concat (since now : Duration) (times : List Duration) :
    bucketOf rate burst since (times ++ [now]) =
      ((bucketOf rate burst since times).allow now).2 :=
  TokenBucket.after_append _ _ _

theorem decisionsOf_concat (since now : Duration) (times : List Duration) :
    decisionsOf rate burst since (times ++ [now]) =
      decisionsOf rate burst since times ++
        [((bucketOf rate burst since times).allow now).1] := by
  rw [decisionsOf, TokenBucket.run_append, List.map_append]
  rfl

theorem keys_bucketsOf :
    (bucketsOf rate burst created answers).map Prod.fst = created.map Prod.fst := by
  rw [bucketsOf, List.map_map]
  rfl

theorem lookup_bucketsOf :
    (bucketsOf rate burst created answers).lookup key =
      (created.lookup key).map fun since =>
        bucketOf rate burst since (Answer.instants key answers) :=
  lookup_map (fun key since => bucketOf rate burst since (Answer.instants key answers)) created key

theorem bucketsOf_create (since : Duration) :
    bucketsOf rate burst (created ++ [(key, since)]) answers =
      bucketsOf rate burst created answers ++
        [(key, bucketOf rate burst since (Answer.instants key answers))] :=
  List.map_append

/-- A take under a key changes the bucket of that key only. -/
theorem bucketsOf_concat {place : Nat} {since : Duration} {a : Answer}
    (hnodup : (created.map Prod.fst).Nodup) (hplace : created[place]? = some (a.key, since)) :
    (bucketsOf rate burst created answers).set place (a.key,
        ((bucketOf rate burst since (Answer.instants a.key answers)).allow a.instant).2) =
      bucketsOf rate burst created (answers ++ [a]) := by
  have htaken : ((bucketOf rate burst since (Answer.instants a.key answers)).allow a.instant).2 =
      bucketOf rate burst since (Answer.instants a.key (answers ++ [a])) := by
    rw [Answer.instants_concat, if_pos rfl, bucketOf_concat]
  rw [htaken, bucketsOf, bucketsOf]
  apply set_map (f := fun e => (e.1, bucketOf rate burst e.2 (Answer.instants e.1 answers)))
    (g := fun e => (e.1, bucketOf rate burst e.2 (Answer.instants e.1 (answers ++ [a]))))
    hnodup hplace
  intro e _ hne
  rw [Answer.instants_concat, if_neg (Ne.symm hne), List.append_nil]

end Buckets

/-! ## The two steps of a call -/

variable {α : Type} [Amount α]

/-- Finds the bucket of a key, which is created unless there is one: its place among the buckets. -/
def find (l : Limiter α) (key : String) (now : Duration) : Nat × Limiter α :=
  ((l.ensure key now).buckets.findIdx (·.1 == key), l.ensure key now)

/-- Takes from the bucket at a place, whichever key it is of. -/
def takeAt (l : Limiter α) (place : Nat) (now : Duration) : Decision × Limiter α :=
  match l.buckets[place]? with
  | some (key, bucket) =>
    ((bucket.allow now).1,
      { l with buckets := l.buckets.set place (key, (bucket.allow now).2) })
  | none => (⟨false, 0⟩, l)

/-- A call that has found the bucket of its key and has not taken from it yet. -/
structure Ticket where
  caller : Nat
  key : String
  place : Nat
  deriving DecidableEq, Repr

/-- Whether a ticket is that of a caller for a key. -/
def Ticket.isOf (caller : Nat) (key : String) (t : Ticket) : Bool :=
  t.key == key && t.caller == caller

namespace Ticket

/-- The callers that are between their steps under a key. -/
def waiting (key : String) (tickets : List Ticket) : List Nat :=
  (tickets.filter (·.key == key)).map (·.caller)

variable {caller : Nat} {key key' : String} {t : Ticket} {tickets : List Ticket}

theorem isOf_iff : t.isOf caller key = true ↔ t.key = key ∧ t.caller = caller := by
  rw [isOf, Bool.and_eq_true, beq_iff_eq, beq_iff_eq]

theorem waiting_cons_of_eq (h : t.key = key) :
    waiting key (t :: tickets) = t.caller :: waiting key tickets := by
  simp [waiting, h]

theorem waiting_cons_of_ne (h : t.key ≠ key) :
    waiting key (t :: tickets) = waiting key tickets := by
  simp [waiting, h]

theorem waiting_concat (key : String) (tickets : List Ticket) (t : Ticket) :
    waiting key (tickets ++ [t]) =
      waiting key tickets ++ if t.key = key then [t.caller] else [] := by
  have happend : waiting key (tickets ++ [t]) = waiting key tickets ++ waiting key [t] := by
    rw [waiting, List.filter_append, List.map_append]
    rfl
  rw [happend]
  by_cases h : t.key = key
  · rw [waiting_cons_of_eq h, if_pos h]
    rfl
  · rw [waiting_cons_of_ne h, if_neg h]
    rfl

theorem find?_eq_none_iff :
    tickets.find? (isOf caller key) = none ↔ caller ∉ waiting key tickets := by
  rw [List.find?_eq_none, waiting, List.mem_map]
  constructor
  · rintro h ⟨t, ht, hcaller⟩
    obtain ⟨hmem, hkey⟩ := List.mem_filter.mp ht
    exact h t hmem (isOf_iff.mpr ⟨beq_iff_eq.mp hkey, hcaller⟩)
  · intro h t hmem hof
    obtain ⟨hkey, hcaller⟩ := isOf_iff.mp hof
    exact h ⟨t, List.mem_filter.mpr ⟨hmem, beq_iff_eq.mpr hkey⟩, hcaller⟩

theorem waiting_eraseP (caller : Nat) (key : String) (tickets : List Ticket) :
    waiting key (tickets.eraseP (isOf caller key)) = (waiting key tickets).erase caller := by
  induction tickets with
  | nil => rfl
  | cons t tickets ih =>
    by_cases hkey : t.key = key
    · rw [waiting_cons_of_eq hkey]
      by_cases hcaller : t.caller = caller
      · rw [List.eraseP_cons_of_pos (isOf_iff.mpr ⟨hkey, hcaller⟩), hcaller, List.erase_cons_head]
      · have hnot : ¬ t.isOf caller key = true := fun h => hcaller (isOf_iff.mp h).2
        rw [List.eraseP_cons_of_neg hnot, waiting_cons_of_eq hkey, ih,
          List.erase_cons_tail (by simpa using hcaller)]
    · have hnot : ¬ t.isOf caller key = true := fun h => hkey (isOf_iff.mp h).1
      rw [List.eraseP_cons_of_neg hnot, waiting_cons_of_ne hkey, waiting_cons_of_ne hkey, ih]

theorem waiting_eraseP_of_ne (hne : key' ≠ key) (caller : Nat) (tickets : List Ticket) :
    waiting key (tickets.eraseP (isOf caller key')) = waiting key tickets := by
  induction tickets with
  | nil => rfl
  | cons t tickets ih =>
    by_cases hof : t.isOf caller key' = true
    · have hkey : t.key ≠ key := (isOf_iff.mp hof).1.symm ▸ hne
      rw [List.eraseP_cons_of_pos hof, waiting_cons_of_ne hkey]
    · rw [List.eraseP_cons_of_neg hof]
      by_cases hkey : t.key = key
      · rw [waiting_cons_of_eq hkey, waiting_cons_of_eq hkey, ih]
      · rw [waiting_cons_of_ne hkey, waiting_cons_of_ne hkey, ih]

end Ticket

/-- A limiter at an instant, with the calls that are between their steps. -/
structure Sharing (α : Type) where
  limiter : Limiter α
  now : Duration
  pending : List Ticket := []
  /-- The buckets that were created, by key, with the instants of their creation. -/
  created : List (String × Duration) := []
  /-- The answers of all calls, in the order in which they took from their buckets. -/
  answers : List Answer := []

/-- What callers and the clock do. -/
inductive Action
  /-- A call begins and finds the bucket of its key. -/
  | find (caller : Nat) (key : String)
  /-- A call takes from the bucket that it has found; a caller that has found none does nothing. -/
  | take (caller : Nat) (key : String)
  /-- Time passes. -/
  | wait (d : Duration)
  deriving DecidableEq, Repr

namespace Action

/-- The key of a call that begins. -/
def asked? : Action → Option String
  | .find _ key => some key
  | _ => none

/-- Whether an action is the clock's, or of a call for a key. -/
def concerns (key : String) : Action → Bool
  | .find _ k => k == key
  | .take _ k => k == key
  | .wait _ => true

end Action

namespace Sharing

/-- A limiter that nobody has used yet. -/
def fresh (rate : α) (burst : Nat) (now : Duration) : Sharing α :=
  { limiter := { rate, burst }, now }

/-- What one action does. -/
def step (u : Sharing α) : Action → Sharing α
  | .find caller key =>
    { u with
      limiter := (u.limiter.find key u.now).2
      pending := u.pending ++ [⟨caller, key, (u.limiter.find key u.now).1⟩]
      created :=
        if (u.limiter.bucket? key).isSome then u.created else u.created ++ [(key, u.now)] }
  | .take caller key =>
    match u.pending.find? (Ticket.isOf caller key) with
    | none => u
    | some ticket =>
      { u with
        limiter := (u.limiter.takeAt ticket.place u.now).2
        pending := u.pending.eraseP (Ticket.isOf caller key)
        answers :=
          u.answers ++ [⟨caller, key, u.now, (u.limiter.takeAt ticket.place u.now).1⟩] }
  | .wait d => { u with now := u.now + d }

/-- What a sequence of actions does. -/
def run (u : Sharing α) (actions : List Action) : Sharing α := actions.foldl step u

/-- There is one bucket for each key that was created, and it is as the calls under the key leave a
new one. -/
structure Sound (rate : α) (burst : Nat) (u : Sharing α) : Prop where
  rate_eq : u.limiter.rate = rate
  burst_eq : u.limiter.burst = burst
  nodup : (u.created.map Prod.fst).Nodup
  buckets : u.limiter.buckets = bucketsOf rate burst u.created u.answers
  /-- A call between its steps is at the place of the bucket of its key. -/
  pending : ∀ t ∈ u.pending, ∃ since, u.created[t.place]? = some (t.key, since)
  decided : ∀ key, Answer.decisions key u.answers =
    (u.created.lookup key).elim [] fun since =>
      decisionsOf rate burst since (Answer.instants key u.answers)

variable {rate : α} {burst : Nat} {u : Sharing α} {caller : Nat} {key : String}

/-! ## Finding a bucket -/

theorem Sound.bucket?_eq (h : Sound rate burst u) (key : String) :
    u.limiter.bucket? key = (u.created.lookup key).map fun since =>
      bucketOf rate burst since (Answer.instants key u.answers) := by
  rw [bucket?, h.buckets]
  exact lookup_bucketsOf

/-- A key without a bucket has no answers. -/
theorem Sound.instants_of_unseen (h : Sound rate burst u) (hkey : u.created.lookup key = none) :
    Answer.instants key u.answers = [] := by
  have hnone : Answer.decisions key u.answers = [] := by
    rw [h.decided key, hkey]
    rfl
  rw [← List.length_eq_zero_iff, ← Answer.length_decisions, hnone, List.length_nil]

/-- The place that a call finds is that at which the bucket of its key was created. -/
theorem Sound.place_eq (h : Sound rate burst u) (hseen : (u.limiter.bucket? key).isSome) :
    ∃ since, u.created[u.limiter.buckets.findIdx (·.1 == key)]? = some (key, since) := by
  have hmem : key ∈ u.limiter.buckets.map Prod.fst := by
    by_contra hnone
    rw [bucket?, lookup_eq_none.mpr hnone] at hseen
    cases hseen
  obtain ⟨e, he, rfl⟩ := List.mem_map.mp hmem
  have hlt : u.limiter.buckets.findIdx (·.1 == e.1) < u.limiter.buckets.length :=
    List.findIdx_lt_length.mpr ⟨e, he, beq_self_eq_true _⟩
  have hkey := eq_of_beq
    (List.findIdx_getElem (p := fun b : String × TokenBucket α => b.1 == e.1) (w := hlt))
  -- the keys of the buckets are those of their creation, in the same order
  have hkeys : u.limiter.buckets.map Prod.fst = u.created.map Prod.fst := by
    rw [h.buckets, keys_bucketsOf]
  have hat : (u.created.map Prod.fst)[u.limiter.buckets.findIdx (·.1 == e.1)]? = some e.1 := by
    rw [← hkeys, List.getElem?_map, List.getElem?_eq_getElem hlt, Option.map_some, hkey]
  rw [List.getElem?_map, Option.map_eq_some_iff] at hat
  obtain ⟨⟨k, since⟩, hplace, rfl⟩ := hat
  exact ⟨since, hplace⟩

theorem Sound.found (h : Sound rate burst u) (caller : Nat)
    (hseen : (u.limiter.bucket? key).isSome) :
    Sound rate burst { u with
      pending := u.pending ++ [⟨caller, key, u.limiter.buckets.findIdx (·.1 == key)⟩] } where
  rate_eq := h.rate_eq
  burst_eq := h.burst_eq
  nodup := h.nodup
  buckets := h.buckets
  pending t ht := by
    rcases List.mem_append.mp ht with ht | ht
    · exact h.pending t ht
    · obtain rfl := List.mem_singleton.mp ht
      exact h.place_eq hseen
  decided := h.decided

/-- A bucket that is created is that of a key without answers. -/
theorem Sound.create (h : Sound rate burst u) (hnew : u.limiter.bucket? key = none) :
    Sound rate burst { u with
      limiter := u.limiter.ensure key u.now
      created := u.created ++ [(key, u.now)] } := by
  have hunseen : u.created.lookup key = none := by
    rw [h.bucket?_eq key, Option.map_eq_none_iff] at hnew
    exact hnew
  have hnone := h.instants_of_unseen hunseen
  have hensure : u.limiter.ensure key u.now =
      ⟨rate, burst,
        bucketsOf rate burst u.created u.answers ++ [(key, .full rate burst u.now)]⟩ := by
    rw [ensure, hnew, ← h.buckets, ← h.rate_eq, ← h.burst_eq]
    rfl
  rw [hensure]
  exact {
    rate_eq := rfl
    burst_eq := rfl
    nodup := by
      rw [List.map_append, List.nodup_append]
      refine ⟨h.nodup, List.nodup_singleton key, fun k hk k' hk' heq => ?_⟩
      rw [heq, List.mem_singleton.mp hk'] at hk
      exact lookup_eq_none.mp hunseen hk
    buckets := by
      rw [bucketsOf_create, hnone]
      rfl
    pending := by
      intro t ht
      obtain ⟨since, hplace⟩ := h.pending t ht
      have hlt := (List.getElem?_eq_some_iff.mp hplace).1
      exact ⟨since, (List.getElem?_append_left hlt).trans hplace⟩
    decided := by
      intro k
      show Answer.decisions k u.answers = _
      rw [List.lookup_append, h.decided k]
      cases hk : u.created.lookup k with
      | some since => rfl
      | none =>
        rw [Option.none_or, List.lookup_cons]
        cases heq : k == key with
        | true =>
          show [] = decisionsOf rate burst u.now (Answer.instants k u.answers)
          rw [h.instants_of_unseen hk]
          rfl
        | false => rfl }

/-! ## Taking from a bucket -/

theorem isOf_of_find? {t : Ticket} {tickets : List Ticket}
    (h : tickets.find? (Ticket.isOf caller key) = some t) :
    t ∈ tickets ∧ t.key = key ∧ t.caller = caller :=
  ⟨List.mem_of_find?_eq_some h, Ticket.isOf_iff.mp (List.find?_some h)⟩

theorem step_take {t : Ticket} (ht : u.pending.find? (Ticket.isOf caller key) = some t) :
    u.step (.take caller key) = { u with
      limiter := (u.limiter.takeAt t.place u.now).2
      pending := u.pending.eraseP (Ticket.isOf caller key)
      answers := u.answers ++ [⟨caller, key, u.now, (u.limiter.takeAt t.place u.now).1⟩] } := by
  simp only [step, ht]

/-- A call that takes from the bucket it has found takes from that of its key. -/
theorem Sound.takeAt_eq (h : Sound rate burst u) {place : Nat} {since : Duration}
    (hplace : u.created[place]? = some (key, since)) :
    u.limiter.takeAt place u.now =
      let call := (bucketOf rate burst since (Answer.instants key u.answers)).allow u.now
      (call.1, { u.limiter with buckets := u.limiter.buckets.set place (key, call.2) }) := by
  have hbucket : u.limiter.buckets[place]? =
      some (key, bucketOf rate burst since (Answer.instants key u.answers)) := by
    rw [h.buckets, bucketsOf, List.getElem?_map, hplace]
    rfl
  simp only [takeAt, hbucket]

theorem Sound.taken (h : Sound rate burst u) {t : Ticket}
    (ht : u.pending.find? (Ticket.isOf caller key) = some t) :
    Sound rate burst { u with
      limiter := (u.limiter.takeAt t.place u.now).2
      pending := u.pending.eraseP (Ticket.isOf caller key)
      answers := u.answers ++ [⟨caller, key, u.now, (u.limiter.takeAt t.place u.now).1⟩] } := by
  obtain ⟨hmem, hkey, -⟩ := isOf_of_find? ht
  obtain ⟨since, hplace⟩ := h.pending t hmem
  rw [hkey] at hplace
  have hlookup : u.created.lookup key = some since := lookup_of_getElem? h.nodup hplace
  rw [h.takeAt_eq hplace]
  exact {
    rate_eq := h.rate_eq
    burst_eq := h.burst_eq
    nodup := h.nodup
    buckets := by
      show u.limiter.buckets.set _ _ = _
      rw [h.buckets, ← bucketsOf_concat h.nodup hplace]
    pending := fun t ht => h.pending t (List.mem_of_mem_eraseP ht)
    decided := by
      intro k
      show Answer.decisions k (u.answers ++ [_]) = _
      rw [Answer.decisions_concat, Answer.instants_concat, h.decided k]
      by_cases heq : key = k
      · subst heq
        rw [if_pos rfl, if_pos rfl, hlookup, Option.elim_some, Option.elim_some,
          decisionsOf_concat]
      · rw [if_neg heq, if_neg heq, List.append_nil, List.append_nil] }

/-! ## Every run -/

theorem sound_fresh (rate : α) (burst : Nat) (now : Duration) :
    Sound rate burst (fresh rate burst now) where
  rate_eq := rfl
  burst_eq := rfl
  nodup := List.nodup_nil
  buckets := rfl
  pending _ ht := nomatch ht
  decided _ := rfl

theorem Sound.step (h : Sound rate burst u) (a : Action) : Sound rate burst (u.step a) := by
  cases a with
  | find caller key =>
    cases hseen : (u.limiter.bucket? key).isSome with
    | true =>
      have hensure : u.limiter.ensure key u.now = u.limiter := if_pos hseen
      simp only [Sharing.step, Limiter.find, hensure, hseen, if_true]
      exact h.found caller hseen
    | false =>
      have hnew : u.limiter.bucket? key = none := by
        rwa [← Option.not_isSome_iff_eq_none, Bool.not_eq_true]
      have hcreated := h.create hnew
      have hseen' : ((u.limiter.ensure key u.now).bucket? key).isSome := by
        rw [hcreated.bucket?_eq key, Option.isSome_map, List.lookup_append, Option.isSome_or,
          List.lookup_cons_self, Option.isSome_some, Bool.or_true]
      simp only [Sharing.step, Limiter.find, hseen, Bool.false_eq_true, if_false]
      exact hcreated.found caller hseen'
  | take caller key =>
    cases ht : u.pending.find? (Ticket.isOf caller key) with
    | none =>
      simp only [Sharing.step, ht]
      exact h
    | some t =>
      rw [step_take ht]
      exact h.taken ht
  | wait d => exact ⟨h.rate_eq, h.burst_eq, h.nodup, h.buckets, h.pending, h.decided⟩

theorem Sound.run (h : Sound rate burst u) (actions : List Action) :
    Sound rate burst (u.run actions) := by
  induction actions generalizing u with
  | nil => exact h
  | cons a actions ih => exact ih (h.step a)

end Sharing

end Gatehouse.Limiter
