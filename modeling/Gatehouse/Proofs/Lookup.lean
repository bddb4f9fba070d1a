import Mathlib.Data.List.Forall2
import Mathlib.Data.List.Nodup

/-!
# Looking up entries

A list of entries is looked up by their keys. What is found is an entry of the list, it is the one at a
given place where no key occurs twice, and neither a change of the values nor the loss of other keys gets
in the way of finding it. In lists that are related entry by entry an entry of one has its counterpart in
the other.
-/

namespace Gatehouse

variable {α β γ : Type} [BEq α] [LawfulBEq α] {entries : List (α × β)} {key : α} {value : β} {place : Nat}

theorem mem_of_lookup (h : entries.lookup key = some value) : (key, value) ∈ entries := by
  obtain ⟨before, behind, rfl, -⟩ := List.lookup_eq_some_iff.mp h
  exact List.mem_append_cons_self

theorem lookup_eq_none : entries.lookup key = none ↔ key ∉ entries.map Prod.fst := by
  rw [List.lookup_eq_none_iff]
  constructor
  · intro h hmem
    obtain ⟨e, he, rfl⟩ := List.mem_map.mp hmem
    simpa using h e he
  · intro h e he
    rw [bne_iff_ne]
    rintro rfl
    exact h (List.mem_map_of_mem he)

theorem lookup_of_getElem? (hnodup : (entries.map Prod.fst).Nodup)
    (h : entries[place]? = some (key, value)) : entries.lookup key = some value := by
  induction entries generalizing place with
  | nil => cases h
  | cons e entries ih =>
    rw [List.map_cons, List.nodup_cons] at hnodup
    cases place with
    | zero =>
      cases h
      exact List.lookup_cons_self
    | succ place =>
      have hmem : (key, value) ∈ entries := List.mem_of_getElem? h
      have hne : (key == e.1) = false := by
        rw [beq_eq_false_iff_ne]
        intro heq
        exact hnodup.1 (heq ▸ List.mem_map_of_mem hmem)
      rw [List.lookup_cons, hne]
      exact ih hnodup.2 h

theorem lookup_map (f : α → β → γ) (entries : List (α × β)) (key : α) :
    (entries.map fun (k, v) => (k, f k v)).lookup key = (entries.lookup key).map (f key) := by
  induction entries with
  | nil => rfl
  | cons e entries ih =>
    rw [List.map_cons, List.lookup_cons, List.lookup_cons]
    cases hkey : key == e.1 with
    | true => rw [eq_of_beq hkey]; rfl
    | false => exact ih

theorem lookup_filter (p : α → Bool) (entries : List (α × β)) (key : α) :
    (entries.filter fun e => p e.1).lookup key = if p key then entries.lookup key else none := by
  induction entries with
  | nil => rw [List.filter_nil, List.lookup_nil, ite_self]
  | cons e entries ih =>
    rw [List.filter_cons, List.lookup_cons]
    cases hkey : key == e.1 with
    | true =>
      obtain rfl : key = e.1 := eq_of_beq hkey
      split
      · rw [List.lookup_cons, hkey]
      · next hlost => rw [ih, if_neg hlost]
    | false =>
      split
      · rw [List.lookup_cons, hkey, ih]
      · exact ih

theorem lookup_filter_of_mem [DecidableEq α] (keys : List α) (entries : List (α × β)) (h : key ∈ keys) :
    (entries.filter fun e => e.1 ∈ keys).lookup key = entries.lookup key := by
  rw [lookup_filter (fun k => decide (k ∈ keys)), if_pos (by simpa using h)]

theorem mem_of_forall₂ {ι κ : Type} {R : ι → κ → Prop} {as : List ι} {bs : List κ}
    (h : List.Forall₂ R as bs) : ∀ a ∈ as, ∃ b ∈ bs, R a b := by
  induction h with
  | nil => exact List.forall_mem_nil _
  | cons hab _ ih =>
    rw [List.forall_mem_cons]
    refine ⟨⟨_, List.mem_cons_self, hab⟩, ?_⟩
    intro a ha
    obtain ⟨b, hb, hR⟩ := ih a ha
    exact ⟨b, List.mem_cons_of_mem _ hb, hR⟩

end Gatehouse
