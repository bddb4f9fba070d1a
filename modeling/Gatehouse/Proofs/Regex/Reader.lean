import Mathlib.Data.List.Basic
import Gatehouse.Regex.Parser

/-!
# Reading with a dollar sign behind

The readers of a regular expression look ahead, so what they make of a text can depend on what
stands behind it. This module says when a dollar sign behind the text makes no difference: a reader
is `Closed` if it never does, `Local` if it does not as long as something of the text is left, and
`Firm` if the reader is closed and does not read the empty text. The dollar sign is the one that the
patterns of hosts are anchored with.
-/

namespace Gatehouse.Regex

open Reader

/-- The input with a dollar sign behind it. -/
def Input.dollared (i : Input) : Input := { i with rest := i.rest ++ ['$'] }

variable {α β : Type} {r r' : Reader α} {f f' : α → Reader β} {i j : Input} {a : α} {flags : Flags}

/-- A character in front of the dollar sign stands in the text. -/
theorem append_dollar_eq_cons {cs rest : List Char} {c : Char} (h : cs ++ ['$'] = c :: rest)
    (hc : c ≠ '$') : ∃ tail, cs = c :: tail ∧ rest = tail ++ ['$'] := by
  rcases List.append_eq_cons_iff.mp h with ⟨-, hdollar⟩ | ⟨tail, rfl, rfl⟩
  · exact absurd (List.head_eq_of_cons_eq hdollar).symm hc
  · exact ⟨tail, rfl, rfl⟩

/-! ## Readers -/

theorem run_bind_eq_some {b : β} {k : Input} : (r >>= f).run i = some (b, k) ↔
    ∃ a j, r.run i = some (a, j) ∧ (f a).run j = some (b, k) := by
  simp [StateT.run_bind, Option.bind_eq_some_iff]

theorem run_lift_eq_some {o : Option α} :
    (liftM o : Reader α).run i = some (a, j) ↔ o = some a ∧ i = j := by
  cases o <;> simp

/-- With a dollar sign behind, `r'` reads what `r` reads without, and `r` yields no new text. -/
def Closed (r r' : Reader α) : Prop := ∀ ⦃i a j⦄, r.run i = some (a, j) →
  (j.rest ≠ [] → i.rest ≠ []) ∧ r'.run i.dollared = some (a, j.dollared)

/-- With a dollar sign behind, `r'` reads what `r` reads without, where that leaves something. -/
def Local (r r' : Reader α) : Prop := ∀ ⦃i a j⦄, r.run i = some (a, j) → j.rest ≠ [] →
  i.rest ≠ [] ∧ r'.run i.dollared = some (a, j.dollared)

/-- With a dollar sign behind, `r'` reads what `r` reads without, which is not the empty text. -/
def Firm (r r' : Reader α) : Prop := ∀ ⦃i a j⦄, r.run i = some (a, j) →
  i.rest ≠ [] ∧ r'.run i.dollared = some (a, j.dollared)

theorem Firm.closed (h : Firm r r') : Closed r r' := fun _ _ _ hr => ⟨fun _ => (h hr).1, (h hr).2⟩

theorem Closed.toLocal (h : Closed r r') : Local r r' := fun _ _ _ hr hj =>
  ⟨(h hr).1 hj, (h hr).2⟩

theorem Firm.toLocal (h : Firm r r') : Local r r' := h.closed.toLocal

theorem Closed.bind (h : Closed r r') (hf : ∀ a, Closed (f a) (f' a)) :
    Closed (r >>= f) (r' >>= f') := by
  intro i b k hrun
  obtain ⟨a, j, hr, hk⟩ := run_bind_eq_some.mp hrun
  obtain ⟨hrest, hr'⟩ := h hr
  obtain ⟨hrest', hk'⟩ := hf a hk
  exact ⟨hrest ∘ hrest', run_bind_eq_some.mpr ⟨a, _, hr', hk'⟩⟩

theorem Local.bind (h : Local r r') (hf : ∀ a, Local (f a) (f' a)) :
    Local (r >>= f) (r' >>= f') := by
  intro i b k hrun hrest
  obtain ⟨a, j, hr, hk⟩ := run_bind_eq_some.mp hrun
  obtain ⟨hrest', hk'⟩ := hf a hk hrest
  obtain ⟨hrest'', hr'⟩ := h hr hrest'
  exact ⟨hrest'', run_bind_eq_some.mpr ⟨a, _, hr', hk'⟩⟩

/-- What is read behind a local reader keeps it from the end of the text. -/
theorem Local.bind_firm (h : Local r r') (hf : ∀ a, Firm (f a) (f' a)) :
    Firm (r >>= f) (r' >>= f') := by
  intro i b k hrun
  obtain ⟨a, j, hr, hk⟩ := run_bind_eq_some.mp hrun
  obtain ⟨hrest, hk'⟩ := hf a hk
  obtain ⟨hrest', hr'⟩ := h hr hrest
  exact ⟨hrest', run_bind_eq_some.mpr ⟨a, _, hr', hk'⟩⟩

theorem Firm.bind (h : Firm r r') (hf : ∀ a, Closed (f a) (f' a)) :
    Firm (r >>= f) (r' >>= f') := by
  intro i b k hrun
  obtain ⟨a, j, hr, hk⟩ := run_bind_eq_some.mp hrun
  obtain ⟨hrest, hr'⟩ := h hr
  exact ⟨hrest, run_bind_eq_some.mpr ⟨a, _, hr', (hf a hk).2⟩⟩

theorem closed_pure (a : α) : Closed (pure a) (pure a) := by
  intro i b j h
  obtain ⟨rfl, rfl⟩ : a = b ∧ i = j := by simpa using h
  exact ⟨id, rfl⟩

theorem firm_failure : Firm (failure : Reader α) r := by
  intro i a j h
  cases h

/-- What is read where a certain character comes next is the same with a dollar sign behind. -/
def ClosedAt (c : Char) (r r' : Reader α) : Prop := ∀ ⦃cs groups names a j⦄,
  r.run ⟨c :: cs, groups, names⟩ = some (a, j) →
    r'.run ⟨c :: (cs ++ ['$']), groups, names⟩ = some (a, j.dollared)

theorem Closed.closedAt {c : Char} (h : Closed r r') : ClosedAt c r r' := fun _ _ _ _ _ hr => (h hr).2

/-- A character that is known to come next can be passed over. -/
theorem closedAt_skip {c : Char} {f f' : Unit → Reader α} (h : Closed (f ()) (f' ())) :
    ClosedAt c (skip 1 >>= f) (skip 1 >>= f') := by
  intro cs groups names a j hr
  obtain ⟨_, _, ⟨⟩, hr⟩ := run_bind_eq_some.mp hr
  exact (h hr).2

theorem firm_peek_bind {f f' : Option Char → Reader α} (hnone : Firm (f none) (f' none))
    (hsome : ∀ c, ClosedAt c (f (some c)) (f' (some c))) : Firm (peek >>= f) (peek >>= f') := by
  rintro ⟨rest, groups, names⟩ a j hr
  cases rest with
  | nil => exact absurd rfl (hnone hr).1
  | cons c cs => exact ⟨List.cons_ne_nil c cs, hsome c hr⟩

theorem closed_peek_bind {f f' : Option Char → Reader α}
    (hnil : ∀ ⦃groups names a j⦄, (f none).run ⟨[], groups, names⟩ = some (a, j) →
      j.rest = [] ∧ (f' (some '$')).run ⟨['$'], groups, names⟩ = some (a, j.dollared))
    (hsome : ∀ c, ClosedAt c (f (some c)) (f' (some c))) : Closed (peek >>= f) (peek >>= f') := by
  rintro ⟨rest, groups, names⟩ a j hr
  cases rest with
  | nil => exact ⟨fun hrest => absurd (hnil hr).1 hrest, (hnil hr).2⟩
  | cons c cs => exact ⟨fun _ => List.cons_ne_nil c cs, hsome c hr⟩

theorem local_peek : Local peek peek := by
  rintro ⟨rest, groups, names⟩ _ _ ⟨⟩ hrest
  obtain ⟨c, cs, rfl⟩ := List.exists_cons_of_ne_nil hrest
  exact ⟨hrest, rfl⟩

theorem closed_lift (o : Option α) : Closed (liftM o) (liftM o) := by
  intro i a j h
  obtain ⟨rfl, rfl⟩ := run_lift_eq_some.mp h
  exact ⟨id, rfl⟩

theorem Closed.firm (h : Closed r r') (hnil : ∀ groups names, r.run ⟨[], groups, names⟩ = none) :
    Firm r r' := by
  rintro ⟨rest, groups, names⟩ a j hr
  refine ⟨fun (hrest : rest = []) => ?_, (h hr).2⟩
  subst hrest
  rw [hnil] at hr
  cases hr

theorem Firm.run_nil (h : Firm r r') {groups : Nat} {names : List (String × Nat)} :
    r.run ⟨[], groups, names⟩ = none := by
  cases hr : r.run ⟨[], groups, names⟩ with
  | none => rfl
  | some result => exact absurd rfl (h hr).1

theorem closed_if {p : Prop} [Decidable p] {s s' : Reader α} (h : Closed r r') (h' : Closed s s') :
    Closed (if p then r else s) (if p then r' else s') := by
  split
  · exact h
  · exact h'

theorem run_get_bind {f : Input → Reader α} : (get >>= f).run i = (f i).run i := by
  simp

theorem closed_get_bind {f f' : Input → Reader α} (h : ∀ i, Closed (f i) (f' i.dollared)) :
    Closed (get >>= f) (get >>= f') := by
  intro i a j hr
  rw [run_get_bind] at hr
  rw [run_get_bind]
  exact h i hr

/-! ## Characters -/

theorem firm_next : Firm next next := by
  rintro ⟨rest, groups, names⟩ a j h
  cases rest with
  | nil => cases h
  | cons c cs =>
    obtain ⟨rfl, rfl⟩ : c = a ∧ _ = j := by simpa [next] using h
    exact ⟨List.cons_ne_nil c cs, rfl⟩

/-- What is taken from the front of a text ends before the dollar sign, if that is not wanted or
something before it is not. -/
theorem takeWhile_dollar {p : Char → Bool} {cs : List Char}
    (h : p '$' = false ∨ cs.dropWhile p ≠ []) :
    (cs ++ ['$']).takeWhile p = cs.takeWhile p ∧
      (cs ++ ['$']).dropWhile p = cs.dropWhile p ++ ['$'] := by
  induction cs with
  | nil =>
    have hp : p '$' = false := by simpa using h
    simp [hp]
  | cons c cs ih =>
    by_cases hc : p c = true
    · rw [List.dropWhile_cons_of_pos hc] at h ⊢
      rw [List.cons_append, List.takeWhile_cons_of_pos hc, List.dropWhile_cons_of_pos hc,
        List.takeWhile_cons_of_pos hc, (ih h).1, (ih h).2]
      exact ⟨rfl, rfl⟩
    · rw [List.cons_append, List.takeWhile_cons_of_neg hc, List.dropWhile_cons_of_neg hc,
        List.takeWhile_cons_of_neg hc, List.dropWhile_cons_of_neg hc]
      exact ⟨rfl, rfl⟩

theorem run_takeWhile (p : Char → Bool) :
    (takeWhile p).run i = some (i.rest.takeWhile p, { i with rest := i.rest.dropWhile p }) := rfl

theorem ne_nil_of_dropWhile {p : Char → Bool} {cs : List Char} (h : cs.dropWhile p ≠ []) : cs ≠ [] :=
  fun hnil => h (by rw [hnil]; rfl)

theorem local_takeWhile (p : Char → Bool) : Local (takeWhile p) (takeWhile p) := by
  rintro i _ _ ⟨⟩ hrest
  obtain ⟨htake, hdrop⟩ := takeWhile_dollar (.inr hrest)
  refine ⟨ne_nil_of_dropWhile hrest, ?_⟩
  rw [run_takeWhile, Input.dollared, htake, hdrop]
  rfl

/-- Where the dollar sign is not wanted, it is left behind. -/
theorem closed_takeWhile {p : Char → Bool} (hp : p '$' = false) :
    Closed (takeWhile p) (takeWhile p) := by
  rintro i _ _ ⟨⟩
  obtain ⟨htake, hdrop⟩ := @takeWhile_dollar p i.rest (.inl hp)
  refine ⟨ne_nil_of_dropWhile, ?_⟩
  rw [run_takeWhile, Input.dollared, htake, hdrop]
  rfl

theorem run_accept (text : String) : (accept text).run i =
    if i.rest.take text.toList.length = text.toList then
      some (true, { i with rest := i.rest.drop text.toList.length })
    else some (false, i) := by
  simp only [accept, skip]
  split <;> simp_all

theorem closed_accept {text : String} (h : '$' ∉ text.toList) :
    Closed (accept text) (accept text) := by
  intro i b j hrun
  rw [run_accept] at hrun
  rw [run_accept, Input.dollared]
  by_cases hle : text.toList.length ≤ i.rest.length
  · rw [List.take_append_of_le_length hle, List.drop_append_of_le_length hle]
    by_cases heq : i.rest.take text.toList.length = text.toList
    · rw [if_pos heq] at hrun ⊢
      obtain ⟨rfl, rfl⟩ : true = b ∧ _ = j := by simpa using hrun
      exact ⟨fun hrest hnil => hrest (by simp [hnil]), rfl⟩
    · rw [if_neg heq] at hrun ⊢
      obtain ⟨rfl, rfl⟩ : false = b ∧ i = j := by simpa using hrun
      exact ⟨id, rfl⟩
  · have hlt : i.rest.length < text.toList.length := Nat.lt_of_not_le hle
    have hshort : i.rest ≠ text.toList := fun heq => hle (heq ▸ Nat.le_refl _)
    have hdollar : i.rest ++ ['$'] ≠ text.toList := fun heq => h (heq ▸ by simp)
    rw [List.take_of_length_le (Nat.le_of_lt hlt), if_neg hshort] at hrun
    obtain ⟨rfl, rfl⟩ : false = b ∧ i = j := by simpa using hrun
    rw [List.take_of_length_le (by rw [List.length_append]; exact hlt), if_neg hdollar]
    exact ⟨id, rfl⟩

section

variable {text : String} {s s' : Reader α} (htext : '$' ∉ text.toList)

include htext

theorem closed_accept_if (h : Closed r r') (hs : Closed s s') :
    Closed (do if ← accept text then r else s) (do if ← accept text then r' else s') :=
  (closed_accept htext).bind fun _ => closed_if h hs

/-- Where a text may come next, what is read is firm if it is without that text. -/
theorem firm_accept_if (hne : text.toList ≠ []) (h : Closed r r') (hs : Firm s s') :
    Firm (do if ← accept text then r else s) (do if ← accept text then r' else s') := by
  refine (closed_accept_if htext h hs.closed).firm fun groups names => ?_
  have haccept : (accept text).run ⟨[], groups, names⟩ = some (false, ⟨[], groups, names⟩) := by
    rw [run_accept, List.take_nil, if_neg hne.symm]
  simp [StateT.run_bind, haccept, hs.run_nil]

end

theorem local_skip (n : Nat) : Local (skip n) (skip n) := by
  rintro ⟨rest, groups, names⟩ _ _ ⟨⟩ (hrest : rest.drop n ≠ [])
  have hlt : n < rest.length := by simpa using hrest
  refine ⟨List.ne_nil_of_length_pos (Nat.zero_lt_of_lt hlt), ?_⟩
  simp only [skip, StateT.run_modify, Input.dollared,
    List.drop_append_of_le_length (Nat.le_of_lt hlt)]
  rfl

/-! ## Blanks -/

theorem afterBlanks_nil (fuel : Nat) : afterBlanks fuel [] = [] := by cases fuel <;> rfl

/-- Blanks and comments in front of something end before the dollar sign. -/
theorem afterBlanks_dollar {n m : Nat} {cs : List Char} (hn : cs.length ≤ n) (hm : n ≤ m)
    (h : afterBlanks n cs ≠ []) : afterBlanks m (cs ++ ['$']) = afterBlanks n cs ++ ['$'] := by
  induction n generalizing m cs with
  | zero =>
    obtain rfl := List.length_eq_zero_iff.mp (Nat.le_zero.mp hn)
    exact absurd rfl h
  | succ n ih =>
    obtain ⟨m, rfl⟩ := Nat.exists_eq_add_of_le' (Nat.le_trans (Nat.le_add_left 1 n) hm)
    have hm' : n ≤ m := Nat.le_of_succ_le_succ hm
    cases cs with
    | nil => exact absurd rfl h
    | cons c cs =>
      have hn' : cs.length ≤ n := Nat.le_of_succ_le_succ hn
      simp only [List.cons_append, afterBlanks] at h ⊢
      split at h
      case isTrue hc =>
        have hline : cs.dropWhile (· != '\n') ≠ [] := by
          intro hnil
          rw [hnil] at h
          exact h (afterBlanks_nil n)
        obtain ⟨d, ds, hds⟩ := List.exists_cons_of_ne_nil hline
        have hlength : ds.length ≤ n := by
          have hle := (List.dropWhile_sublist (· != '\n') (l := cs)).length_le
          rw [hds, List.length_cons] at hle
          omega
        rw [if_pos hc, if_pos hc, (takeWhile_dollar (.inr hline)).2, hds]
        rw [hds] at h
        exact ih hlength hm' h
      case isFalse hc =>
        rw [if_neg hc, if_neg hc]
        split at h
        case isTrue hblank =>
          rw [if_pos hblank, if_pos hblank]
          exact ih hn' hm' h
        case isFalse hblank => rw [if_neg hblank, if_neg hblank, List.cons_append]

theorem unblanked_nil (flags : Flags) : unblanked flags [] = [] := by
  rw [unblanked]
  split <;> rfl

theorem unblanked_dollar {cs : List Char} (h : unblanked flags cs ≠ []) :
    unblanked flags (cs ++ ['$']) = unblanked flags cs ++ ['$'] := by
  rw [unblanked] at h
  rw [unblanked, unblanked]
  split
  · next hverbose =>
    rw [if_pos hverbose] at h
    have hlength : (cs ++ ['$']).length = cs.length + 1 := by simp
    rw [hlength]
    exact afterBlanks_dollar (Nat.le_refl _) (Nat.le_succ _) h
  · rfl

theorem unblanked_of_not_verbose (h : flags.verbose = false) (cs : List Char) :
    unblanked flags cs = cs := if_neg (by simp [h])

theorem run_blanks (flags : Flags) :
    (blanks flags).run i = some ((), { i with rest := unblanked flags i.rest }) := rfl

theorem local_blanks (flags : Flags) : Local (blanks flags) (blanks flags) := by
  rintro ⟨rest, groups, names⟩ _ _ ⟨⟩ (hrest : unblanked flags rest ≠ [])
  refine ⟨fun (hnil : rest = []) => hrest ?_, ?_⟩
  · rw [hnil, unblanked_nil]
  · rw [run_blanks, Input.dollared, unblanked_dollar hrest]
    rfl

end Gatehouse.Regex
