import Gatehouse.Unicode.CharSet

/-!
# What sets of characters contain

Ranges are sorted and joined where they touch, which changes neither what they contain together
(`has_ofList`) nor adds to their number.
-/

namespace Gatehouse.Unicode.CharSet

variable {s t : CharSet} {first last n : Nat} {ranges : List (Nat × Nat)}

theorem has_iff : s.has n = true ↔ ∃ r ∈ s.ranges, r.1 ≤ n ∧ n ≤ r.2 := by
  simp [has]

theorem has_single {c : Char} : (single c).has n = true ↔ n = c.toNat := by
  simp only [has_iff, single, List.mem_singleton, exists_eq_left]
  omega

/-- Joining ranges in the order in which they begin leaves out nothing and adds nothing. -/
theorem exists_mem_join (hsorted : ((first, last) :: ranges).Pairwise fun a b => a.1 ≤ b.1) :
    (∃ r ∈ join first last ranges, r.1 ≤ n ∧ n ≤ r.2) ↔
      ∃ r ∈ (first, last) :: ranges, r.1 ≤ n ∧ n ≤ r.2 := by
  induction ranges generalizing first last with
  | nil => rfl
  | cons range rest ih =>
    obtain ⟨f, l⟩ := range
    obtain ⟨hfirst, hrest⟩ := List.pairwise_cons.mp hsorted
    have hle : first ≤ f := hfirst (f, l) List.mem_cons_self
    rw [join]
    split
    · next htouch =>
      -- the second range begins within the first one or right behind it
      have hjoined : ((first, max last l) :: rest).Pairwise fun a b => a.1 ≤ b.1 :=
        List.pairwise_cons.mpr ⟨fun r hr => hfirst r (List.mem_cons_of_mem _ hr), hrest.of_cons⟩
      have hwithin : first ≤ n ∧ n ≤ max last l ↔ first ≤ n ∧ n ≤ last ∨ f ≤ n ∧ n ≤ l := by omega
      rw [ih hjoined]
      simp only [List.mem_cons, or_and_right, exists_or, exists_eq_left, hwithin, or_assoc]
    · simp only [List.mem_cons, or_and_right, exists_or, exists_eq_left, ih hrest]

/-- The ranges that are not empty, in the order in which they begin. -/
def sorted (ranges : List (Nat × Nat)) : List (Nat × Nat) :=
  (ranges.filter fun r => r.1 ≤ r.2).mergeSort fun a b => a.1 ≤ b.1

theorem pairwise_sorted (ranges : List (Nat × Nat)) :
    (sorted ranges).Pairwise fun a b => a.1 ≤ b.1 := by
  refine (List.pairwise_mergeSort (fun a b c hab hbc => ?_) (fun a b => ?_) _).imp of_decide_eq_true
  · simp only [decide_eq_true_eq] at *
    omega
  · simp only [Bool.or_eq_true, decide_eq_true_eq]
    omega

theorem ofList_of_sorted_nil (h : sorted ranges = []) : ofList ranges = ⟨[]⟩ := by
  unfold ofList
  split
  · rfl
  · next heq => exact absurd (heq.symm.trans h) (List.cons_ne_nil _ _)

theorem ofList_of_sorted_cons {rest : List (Nat × Nat)} (h : sorted ranges = (first, last) :: rest) :
    ofList ranges = ⟨join first last rest⟩ := by
  unfold ofList
  split
  · next heq => exact absurd (h.symm.trans heq) (List.cons_ne_nil _ _)
  · next heq =>
    cases h.symm.trans heq
    rfl

theorem has_ofList : (ofList ranges).has n = true ↔ ∃ r ∈ ranges, r.1 ≤ n ∧ n ≤ r.2 := by
  have hkept : (∃ r ∈ sorted ranges, r.1 ≤ n ∧ n ≤ r.2) ↔ ∃ r ∈ ranges, r.1 ≤ n ∧ n ≤ r.2 := by
    simp only [sorted, List.mem_mergeSort, List.mem_filter, decide_eq_true_eq]
    refine exists_congr fun r => ⟨fun h => ⟨h.1.1, h.2⟩, fun h => ⟨⟨h.1, ?_⟩, h.2⟩⟩
    exact Nat.le_trans h.2.1 h.2.2
  rw [← hkept, has_iff]
  cases hsorted : sorted ranges with
  | nil => rw [ofList_of_sorted_nil hsorted]
  | cons r rest =>
    rw [ofList_of_sorted_cons hsorted]
    exact exists_mem_join (hsorted ▸ pairwise_sorted ranges)

theorem has_union : (s.union t).has n = true ↔ s.has n = true ∨ t.has n = true := by
  simp only [union, has_ofList, List.mem_append, or_and_right, exists_or, ← has_iff]

theorem ofList_singleton {c : Char} : ofList [(c.toNat, c.toNat)] = single c := by
  simp [ofList, single, join]

/-- The complement of one character contains all other characters. -/
theorem contains_complement_single {c d : Char} : (single c).complement.contains d = true ↔ d ≠ c := by
  have hd : d.toNat ≤ 0x10FFFF := by
    rcases d.valid with h | h
    · exact Nat.le_trans (Nat.le_of_lt h) (by decide)
    · exact Nat.le_of_lt_succ h.2
  have hne : d ≠ c ↔ d.toNat ≠ c.toNat := not_congr Char.toNat_inj.symm
  rw [hne, contains, has_iff]
  simp only [complement, single, gaps]
  split <;> split <;> simp <;> omega

end Gatehouse.Unicode.CharSet
