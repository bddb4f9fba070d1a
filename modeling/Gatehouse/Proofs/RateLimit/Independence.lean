import Gatehouse.Proofs.RateLimit.Sharing
import Mathlib.Data.Finset.Card

/-!
# The keys of a limiter are independent

`Share` is the part of a limiter in use that concerns one key. What an action does to it depends on
nothing else (`Sound.share_step`), so that it is the same in a run without the calls for other keys.
`one_bucket_for_each_key` puts this together with what `Sound` says of the buckets: under each key a
limiter decides as one new bucket does.
-/

namespace Gatehouse.Limiter

namespace Sharing

variable {α : Type} [Amount α] {rate : α} {burst : Nat} {u : Sharing α} {caller : Nat}
  {key : String}

/-! ## What concerns one key -/

/-- The part of a limiter in use that concerns one key: when its bucket was created, who is between
the steps of a call under it, and at which instants calls took from its bucket. -/
structure Share where
  now : Duration
  since : Option Duration
  waiting : List Nat
  instants : List Duration

/-- What one action does to the share of a key. -/
def Share.step (key : String) (s : Share) : Action → Share
  | .find caller k =>
    if k = key then
      { s with since := s.since.or (some s.now), waiting := s.waiting ++ [caller] }
    else s
  | .take caller k =>
    if k = key ∧ caller ∈ s.waiting then
      { s with waiting := s.waiting.erase caller, instants := s.instants ++ [s.now] }
    else s
  | .wait d => { s with now := s.now + d }

/-- The share of a key in a limiter. -/
def share (key : String) (u : Sharing α) : Share where
  now := u.now
  since := u.created.lookup key
  waiting := Ticket.waiting key u.pending
  instants := Answer.instants key u.answers

/-- Actions of calls for other keys leave a share alone. -/
theorem Share.step_of_not_concerns {a : Action} (h : a.concerns key = false) (s : Share) :
    s.step key a = s := by
  cases a with
  | find caller k => exact if_neg (beq_eq_false_iff_ne.mp h)
  | take caller k => exact if_neg fun hof => beq_eq_false_iff_ne.mp h hof.1
  | wait d => cases h

/-- A share only depends on the actions that concern its key. -/
theorem Share.foldl_filter (s : Share) (actions : List Action) :
    (actions.filter (·.concerns key)).foldl (Share.step key) s =
      actions.foldl (Share.step key) s := by
  induction actions generalizing s with
  | nil => rfl
  | cons a actions ih =>
    cases ha : a.concerns key with
    | true =>
      rw [List.filter_cons_of_pos ha]
      exact ih _
    | false =>
      rw [List.filter_cons_of_neg (by simp [ha]), List.foldl_cons,
        Share.step_of_not_concerns ha]
      exact ih s

/-- What an action does to the share of a key does not depend on anything else. -/
theorem Sound.share_step (h : Sound rate burst u) (key : String) (a : Action) :
    (u.step a).share key = (u.share key).step key a := by
  cases a with
  | find caller k =>
    have hwaiting := Ticket.waiting_concat key u.pending
      ⟨caller, k, (u.limiter.find k u.now).1⟩
    have hseen : (u.limiter.bucket? k).isSome = (u.created.lookup k).isSome := by
      rw [h.bucket?_eq k, Option.isSome_map]
    simp only [share, Sharing.step, Share.step, hwaiting, hseen]
    by_cases hkey : k = key
    · subst hkey
      cases hk : u.created.lookup k with
      | some since => simp [hk]
      | none => simp [hk, List.lookup_append]
    · have hne : (key == k) = false := beq_eq_false_iff_ne.mpr (Ne.symm hkey)
      cases hk : u.created.lookup k with
      | some since => simp [hkey]
      | none => simp [hkey, List.lookup_append, List.lookup_cons, hne]
  | take caller k =>
    cases ht : u.pending.find? (Ticket.isOf caller k) with
    | none =>
      have hsame : u.step (.take caller k) = u := by simp only [Sharing.step, ht]
      have hstep : (u.share key).step key (.take caller k) = u.share key := by
        apply if_neg
        rintro ⟨rfl, hmem⟩
        exact Ticket.find?_eq_none_iff.mp ht hmem
      rw [hsame, hstep]
    | some t =>
      by_cases hkey : k = key
      · subst hkey
        have hmem : caller ∈ Ticket.waiting k u.pending := by
          by_contra hnone
          rw [Ticket.find?_eq_none_iff.mpr hnone] at ht
          cases ht
        have hstep : (u.share k).step k (.take caller k) = { u.share k with
            waiting := (Ticket.waiting k u.pending).erase caller
            instants := Answer.instants k u.answers ++ [u.now] } := if_pos ⟨rfl, hmem⟩
        rw [hstep]
        simp only [share, Sharing.step, ht, Answer.instants_concat, if_pos, Ticket.waiting_eraseP]
      · have hstep : (u.share key).step key (.take caller k) = u.share key :=
          if_neg fun hof => hkey hof.1
        rw [hstep]
        simp only [share, Sharing.step, ht, Answer.instants_concat, if_neg hkey, List.append_nil,
          Ticket.waiting_eraseP_of_ne hkey]
  | wait d => rfl

theorem Sound.share_run (h : Sound rate burst u) (key : String) (actions : List Action) :
    (u.run actions).share key = actions.foldl (Share.step key) (u.share key) := by
  induction actions generalizing u with
  | nil => rfl
  | cons a actions ih =>
    rw [List.foldl_cons, ← h.share_step]
    exact ih (h.step a)

/-- A bucket is created by the first call for its key. -/
theorem Share.isSome_since_foldl (key : String) (s : Share) (actions : List Action) :
    (actions.foldl (Share.step key) s).since.isSome ↔
      s.since.isSome ∨ key ∈ actions.filterMap Action.asked? := by
  induction actions generalizing s with
  | nil => simp
  | cons a actions ih =>
    rw [List.foldl_cons, ih]
    cases a with
    | find caller k =>
      by_cases hkey : k = key
      · simp [Share.step, Action.asked?, hkey]
      · simp [Share.step, Action.asked?, hkey, Ne.symm hkey]
    | take caller k =>
      by_cases hof : k = key ∧ caller ∈ s.waiting
      · simp [Share.step, Action.asked?, hof]
      · simp [Share.step, Action.asked?, hof]
    | wait d => simp [Share.step, Action.asked?]

/-- Every call that began has taken from its bucket once, or is between its steps. -/
theorem Share.count_asked_foldl (key : String) (s : Share) (actions : List Action) :
    (actions.foldl (Share.step key) s).instants.length +
        (actions.foldl (Share.step key) s).waiting.length =
      s.instants.length + s.waiting.length + (actions.filterMap Action.asked?).count key := by
  induction actions generalizing s with
  | nil => rfl
  | cons a actions ih =>
    rw [List.foldl_cons, ih]
    cases a with
    | find caller k =>
      rw [List.filterMap_cons_some (show Action.asked? (.find caller k) = some k from rfl),
        List.count_cons]
      by_cases hkey : k = key
      · simp only [Share.step, if_pos hkey, List.length_append, List.length_singleton,
          beq_iff_eq.mpr hkey, if_true]
        omega
      · simp only [Share.step, if_neg hkey, beq_eq_false_iff_ne.mpr hkey, Bool.false_eq_true,
          if_false]
        omega
    | take caller k =>
      rw [List.filterMap_cons_none (show Action.asked? (.take caller k) = none from rfl)]
      by_cases hof : k = key ∧ caller ∈ s.waiting
      · have hpos := List.length_pos_of_mem hof.2
        simp only [Share.step, if_pos hof, List.length_append, List.length_singleton,
          List.length_erase_of_mem hof.2]
        omega
      · simp only [Share.step, if_neg hof]
    | wait d => rfl

/-! ## A call that nothing comes between -/

/-- Taking from the place of a key is taking from the bucket of the key. -/
theorem takeAt_eq_take {l : Limiter α} {place : Nat} {bucket : TokenBucket α} {now : Duration}
    (hnodup : (l.buckets.map Prod.fst).Nodup) (hplace : l.buckets[place]? = some (key, bucket)) :
    l.takeAt place now = l.take key now := by
  have hbucket : l.bucket? key = some bucket := lookup_of_getElem? hnodup hplace
  have hset := set_map (f := id)
    (g := fun e => (e.1, if e.1 = key then (bucket.allow now).2 else e.2)) hnodup hplace
    fun e _ hne => by rw [if_neg hne]; rfl
  rw [List.map_id, if_pos rfl] at hset
  simp only [takeAt, hplace, take, hbucket, replace, hset]

/-- The two steps of a call, one directly behind the other, are the call. -/
theorem Sound.step_take_step_find (h : Sound rate burst u)
    (hidle : caller ∉ Ticket.waiting key u.pending) :
    let v := (u.step (.find caller key)).step (.take caller key)
    v.limiter = (u.limiter.allow key u.now).2 ∧ v.pending = u.pending ∧
      v.answers = u.answers ++ [⟨caller, key, u.now, (u.limiter.allow key u.now).1⟩] := by
  intro v
  have hfound : Sound rate burst (u.step (.find caller key)) := h.step _
  have hof : Ticket.isOf caller key ⟨caller, key, (u.limiter.find key u.now).1⟩ = true :=
    Ticket.isOf_iff.mpr ⟨rfl, rfl⟩
  have hnone : u.pending.find? (Ticket.isOf caller key) = none :=
    Ticket.find?_eq_none_iff.mpr hidle
  -- the only ticket of the caller for the key is the last
  have hticket : (u.step (.find caller key)).pending.find? (Ticket.isOf caller key) =
      some ⟨caller, key, (u.limiter.find key u.now).1⟩ := by
    show (u.pending ++ [_]).find? _ = _
    rw [List.find?_append, hnone, Option.none_or, List.find?_cons_of_pos hof]
  have herase : (u.step (.find caller key)).pending.eraseP (Ticket.isOf caller key) =
      u.pending := by
    show (u.pending ++ [_]).eraseP _ = _
    rw [List.eraseP_append_right _ (List.find?_eq_none.mp hnone), List.eraseP_cons_of_pos hof,
      List.append_nil]
  have htake : (u.step (.find caller key)).limiter.takeAt (u.limiter.find key u.now).1 u.now =
      u.limiter.allow key u.now := by
    obtain ⟨since, hplace⟩ := hfound.pending _ (List.mem_of_find?_eq_some hticket)
    have hnodup : ((u.step (.find caller key)).limiter.buckets.map Prod.fst).Nodup := by
      rw [hfound.buckets, keys_bucketsOf]
      exact hfound.nodup
    have hbucket : (u.step (.find caller key)).limiter.buckets[(u.limiter.find key u.now).1]? =
        some (key, bucketOf rate burst since
          (Answer.instants key (u.step (.find caller key)).answers)) := by
      rw [hfound.buckets, bucketsOf, List.getElem?_map, hplace]
      rfl
    exact takeAt_eq_take hnodup hbucket
  have hv := step_take hticket
  refine ⟨?_, ?_, ?_⟩
  · exact (congrArg Sharing.limiter hv).trans (congrArg Prod.snd htake)
  · exact (congrArg Sharing.pending hv).trans herase
  · rw [← htake]
    exact congrArg Sharing.answers hv

/-! ## Independence of the keys -/

theorem created_step (u : Sharing α) (a : Action) : u.created <+: (u.step a).created := by
  cases a with
  | find caller key =>
    simp only [step]
    split
    · exact List.prefix_refl _
    · exact List.prefix_append _ _
  | take caller key =>
    simp only [step]
    split
    · exact List.prefix_refl _
    · exact List.prefix_refl _
  | wait d => exact List.prefix_refl _

/-- A bucket that was created stays at its place. -/
theorem created_run (u : Sharing α) (actions : List Action) :
    u.created <+: (u.run actions).created := by
  induction actions generalizing u with
  | nil => exact List.prefix_refl _
  | cons a actions ih => exact (created_step u a).trans (ih (u.step a))

/-- There are as many buckets as keys that were asked for. -/
theorem size_run (rate : α) (burst : Nat) (start : Duration) (actions : List Action) :
    ((fresh rate burst start).run actions).limiter.size =
      (actions.filterMap Action.asked?).toFinset.card := by
  have h : Sound rate burst ((fresh rate burst start).run actions) :=
    (sound_fresh rate burst start).run actions
  have hkeys : (((fresh rate burst start).run actions).created.map Prod.fst).toFinset =
      (actions.filterMap Action.asked?).toFinset := by
    ext key
    rw [List.mem_toFinset, List.mem_toFinset]
    have hsince := Share.isSome_since_foldl key ((fresh rate burst start).share key) actions
    rw [← (sound_fresh rate burst start).share_run key actions] at hsince
    have hnew : ¬ ((fresh rate burst start).share key).since.isSome := Bool.false_ne_true
    rw [or_iff_right hnew] at hsince
    rw [← hsince, ← not_iff_not, ← lookup_eq_none, Option.not_isSome_iff_eq_none]
    rfl
  rw [size, h.buckets, bucketsOf, List.length_map, ← hkeys, List.toFinset_card_of_nodup h.nodup,
    List.length_map]

/-- **A limiter that callers share is a bucket of its own for each key.** However the steps of
calls come between each other: for each key that was asked for there is one bucket, which stays
where it was created, and a call between its steps is at the place of the bucket of its key. The
decisions under a key are those of a new bucket that is asked at the instants at which the calls
for that key took from theirs; the other actions might as well not have been. Where new buckets
stay full it does not matter either when this one was created. Every call that began has been
answered once or is between its steps, and one that nothing comes between is a call of the limiter.
-/
theorem one_bucket_for_each_key (rate : α) (burst : Nat) (start : Duration)
    (actions : List Action) :
    let u := (fresh rate burst start).run actions
    (u.limiter.buckets.map Prod.fst).Nodup ∧
    u.limiter.buckets.map Prod.fst = u.created.map Prod.fst ∧
    u.limiter.size = (actions.filterMap Action.asked?).toFinset.card ∧
    (∀ later, u.created <+: (u.run later).created) ∧
    (∀ t ∈ u.pending, (u.limiter.buckets.map Prod.fst)[t.place]? = some t.key) ∧
    (∀ key,
      let times := Answer.instants key u.answers
      Answer.decisions key u.answers =
        (u.created.lookup key).elim [] (fun since => decisionsOf rate burst since times) ∧
      (TokenBucket.StaysFull rate burst →
        ∀ since, Answer.decisions key u.answers = decisionsOf rate burst since times) ∧
      (let v := (fresh rate burst start).run (actions.filter (·.concerns key));
        Answer.instants key v.answers = times ∧
          Answer.decisions key v.answers = Answer.decisions key u.answers) ∧
      (Answer.decisions key u.answers).length + (Ticket.waiting key u.pending).length =
        (actions.filterMap Action.asked?).count key) ∧
    ∀ caller key, caller ∉ Ticket.waiting key u.pending →
      let v := (u.step (.find caller key)).step (.take caller key)
      v.limiter = (u.limiter.allow key u.now).2 ∧ v.pending = u.pending ∧
      v.answers = u.answers ++ [⟨caller, key, u.now, (u.limiter.allow key u.now).1⟩] := by
  intro u
  have hfresh : Sound rate burst (fresh rate burst start) := sound_fresh rate burst start
  have h : Sound rate burst u := hfresh.run actions
  have hkeys : u.limiter.buckets.map Prod.fst = u.created.map Prod.fst := by
    rw [h.buckets, keys_bucketsOf]
  refine ⟨hkeys ▸ h.nodup, hkeys, size_run rate burst start actions, created_run u,
    fun t ht => ?_, fun key => ⟨h.decided key, fun hfull since => ?_, ?_, ?_⟩,
    fun caller key hidle => ?_⟩
  · obtain ⟨since, hplace⟩ := h.pending t ht
    rw [hkeys, List.getElem?_map, hplace]
    rfl
  · rw [h.decided key]
    cases hkey : u.created.lookup key with
    | some since' =>
      rw [Option.elim_some, decisionsOf, decisionsOf, hfull.run_eq since' since]
    | none =>
      rw [h.instants_of_unseen hkey]
      rfl
  · -- both runs do the same to the share of the key, which its decisions depend on alone
    intro v
    have hv : Sound rate burst v := hfresh.run _
    have hshare : v.share key = u.share key := by
      rw [hfresh.share_run key (actions.filter (·.concerns key)), Share.foldl_filter,
        ← hfresh.share_run key actions]
    have hinstants : Answer.instants key v.answers = Answer.instants key u.answers :=
      congrArg Share.instants hshare
    have hsince : v.created.lookup key = u.created.lookup key := congrArg Share.since hshare
    refine ⟨hinstants, ?_⟩
    rw [hv.decided key, h.decided key, hsince, hinstants]
  · have hcount := Share.count_asked_foldl key ((fresh rate burst start).share key) actions
    rw [← hfresh.share_run key actions] at hcount
    rw [Answer.length_decisions]
    exact hcount.trans (Nat.zero_add _)
  · exact h.step_take_step_find hidle

/-- Two callers that both find the bucket of a new key before either takes from it share one bucket
of one token, and a third caller has a bucket of its own. -/
example :
    let u := (fresh (1 : ℚ) 1 0).run
      [.find 1 "a", .find 2 "a", .find 3 "b", .take 2 "a", .take 3 "b", .take 1 "a"]
    u.limiter.size = 2 ∧
      u.answers.map (fun a => (a.caller, a.decision.allowed)) =
        [(2, true), (3, true), (1, false)] := by
  decide +kernel

end Sharing

end Gatehouse.Limiter
