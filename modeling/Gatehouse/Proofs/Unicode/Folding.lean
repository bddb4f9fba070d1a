import Gatehouse.Proofs.Unicode.CharSet
import Gatehouse.Unicode.Folding

/-!
# The cases of ASCII characters

Folding maps the letters of ASCII as one expects; beyond ASCII only two characters have a case
within it. So an ASCII character belongs to all cases of another one where they are the same in
lower case (`contains_closure_single`).
-/

namespace Gatehouse.Unicode

open CharSet

variable {s : CharSet} {m n f : Nat} {c d : Char}

/-! ## All cases of a set -/

/-- The code points that some pairs give, those that satisfy `p`. -/
def points (p : Nat × Nat → Bool) (k : Nat × Nat → Nat) (pairs : List (Nat × Nat)) : CharSet :=
  .ofList (pairs.filterMap fun q => if p q then some (k q, k q) else none)

/-- A set with what its characters fold to. -/
def folded (s : CharSet) : CharSet := s.union (points (fun q => s.has q.1) Prod.snd foldPairs)

theorem closure_eq (s : CharSet) : closure s =
    (folded s).union (points (fun q => (folded s).has q.2) Prod.fst foldPairs) := rfl

theorem has_points {p : Nat × Nat → Bool} {k : Nat × Nat → Nat} {pairs : List (Nat × Nat)} :
    (points p k pairs).has m = true ↔ ∃ q ∈ pairs, p q = true ∧ k q = m := by
  simp only [points, has_ofList, List.mem_filterMap, Option.ite_none_right_eq_some, Option.some_inj]
  constructor
  · rintro ⟨_, ⟨q, hq, hp, rfl⟩, hfirst, hlast⟩
    exact ⟨q, hq, hp, Nat.le_antisymm hfirst hlast⟩
  · rintro ⟨q, hq, hp, rfl⟩
    exact ⟨_, ⟨q, hq, hp, rfl⟩, Nat.le_refl _, Nat.le_refl _⟩

theorem has_folded : (folded s).has m = true ↔
    s.has m = true ∨ ∃ n, (n, m) ∈ foldPairs ∧ s.has n = true := by
  simp only [folded, has_union, has_points, Prod.exists]
  refine or_congr_right (exists_congr fun n => ⟨?_, fun h => ⟨m, h.1, h.2, rfl⟩⟩)
  rintro ⟨_, hq, hn, rfl⟩
  exact ⟨hq, hn⟩

theorem has_closure : (closure s).has m = true ↔
    (folded s).has m = true ∨ ∃ f, (m, f) ∈ foldPairs ∧ (folded s).has f = true := by
  simp only [closure_eq, has_union, has_points, Prod.exists]
  refine or_congr_right ⟨?_, fun ⟨f, hq, hf⟩ => ⟨m, f, hq, hf, rfl⟩⟩
  rintro ⟨_, f, hq, hf, rfl⟩
  exact ⟨f, hq, hf⟩

/-! ## ASCII -/

/-- The folding of characters that involves ASCII. -/
def asciiPairs : List (Nat × Nat) :=
  (List.range 26).map (fun i => (i + 65, i + 97)) ++ [(383, 115), (8490, 107)]

theorem filter_foldPairs : (foldPairs.filter fun q => q.1 < 128 || q.2 < 128) = asciiPairs := by
  decide +kernel

theorem mem_foldPairs_iff (h : n < 128 ∨ f < 128) : (n, f) ∈ foldPairs ↔
    (65 ≤ n ∧ n ≤ 90 ∧ f = n + 32) ∨ (n = 383 ∧ f = 115) ∨ (n = 8490 ∧ f = 107) := by
  have hmem : (n, f) ∈ foldPairs ↔
      (n, f) ∈ foldPairs.filter fun q => q.1 < 128 || q.2 < 128 := by
    simp [h]
  rw [hmem, filter_foldPairs, asciiPairs, List.mem_append]
  refine or_congr ?_ (by simp)
  simp only [List.mem_map, List.mem_range, Prod.mk.injEq]
  constructor
  · rintro ⟨i, hi, rfl, rfl⟩
    omega
  · rintro ⟨hlow, hhigh, rfl⟩
    exact ⟨n - 65, by omega, by omega, by omega⟩

/-- A character in lower case, by its number. -/
theorem toLower_cases (c : Char) :
    (65 ≤ c.toNat ∧ c.toNat ≤ 90) ∧ c.toLower.toNat = c.toNat + 32 ∨
      ¬ (65 ≤ c.toNat ∧ c.toNat ≤ 90) ∧ c.toLower.toNat = c.toNat := by
  by_cases h : c.val ≥ 'A'.val ∧ c.val ≤ 'Z'.val
  · have hlower : c.toLower.val = c.val + 32 := congrArg Char.val (dif_pos h)
    have hle : c.val.toNat ≤ 90 := h.2
    refine .inl ⟨h, ?_⟩
    rw [Char.toNat, hlower, UInt32.toNat_add, Nat.mod_eq_of_lt]
    · rfl
    · exact Nat.lt_of_le_of_lt (Nat.add_le_add_right hle 32) (by decide)
  · have hlower : c.toLower = c := dif_neg h
    exact .inr ⟨h, congrArg Char.toNat hlower⟩

theorem has_folded_single (hc : c.toNat < 128) :
    (folded (single c)).has m = true ↔ m = c.toNat ∨ m = c.toLower.toNat := by
  simp only [has_folded, has_single, exists_eq_right, mem_foldPairs_iff (.inl hc)]
  rcases toLower_cases c with ⟨hupper, hlower⟩ | ⟨hupper, hlower⟩ <;> omega

/-- An ASCII character is among all cases of another one if they are the same in lower case. -/
theorem contains_closure_single (hc : c.toNat < 128) (hd : d.toNat < 128) :
    (closure (single c)).contains d = true ↔ d.toLower = c.toLower := by
  have hfolds (f : Nat) : (d.toNat, f) ∈ foldPairs ↔
      (65 ≤ d.toNat ∧ d.toNat ≤ 90) ∧ f = d.toNat + 32 := by
    rw [mem_foldPairs_iff (.inl hd)]
    omega
  rw [← Char.toNat_inj, contains, has_closure]
  simp only [hfolds, and_assoc, exists_and_left, exists_eq_left, has_folded_single hc]
  rcases toLower_cases c with ⟨hc, hlower⟩ | ⟨hc, hlower⟩ <;>
    rcases toLower_cases d with ⟨hd, hlower'⟩ | ⟨hd, hlower'⟩ <;> omega

theorem points_eq_empty {p : Nat × Nat → Bool} {k : Nat × Nat → Nat} {pairs : List (Nat × Nat)}
    (h : ∀ q ∈ pairs, p q = false) : points p k pairs = ⟨[]⟩ := by
  have hnone : pairs.filterMap (fun q => if p q then some (k q, k q) else none) = [] :=
    List.filterMap_eq_nil_iff.mpr fun q hq => by rw [h q hq]; rfl
  simp [points, hnone, ofList]

/-- An ASCII character that is no letter has no other case. -/
theorem closure_single_of_not_letter (hc : c.toNat < 128) (hupper : ¬ (65 ≤ c.toNat ∧ c.toNat ≤ 90))
    (hlower : ¬ (97 ≤ c.toNat ∧ c.toNat ≤ 122)) : closure (single c) = single c := by
  have hfolded : folded (single c) = single c := by
    rw [folded, points_eq_empty, union, List.append_nil, single, ofList_singleton, single]
    rintro ⟨n, f⟩ hq
    refine Bool.eq_false_iff.mpr fun hn => ?_
    obtain rfl := has_single.mp hn
    have := (mem_foldPairs_iff (.inl hc)).mp hq
    omega
  rw [closure_eq, hfolded, points_eq_empty, union, List.append_nil, single, ofList_singleton, single]
  rintro ⟨n, f⟩ hq
  refine Bool.eq_false_iff.mpr fun hf => ?_
  obtain rfl := has_single.mp hf
  have := (mem_foldPairs_iff (.inr hc)).mp hq
  omega

end Gatehouse.Unicode
