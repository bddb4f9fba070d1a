import Gatehouse.Bytes
import Gatehouse.Proofs.Text

/-!
# Byte strings in pieces

`splitOn` against joining: what the pieces are made of, that joining them gives the text back, and
that splitting joined pieces gives the pieces back. The pieces are those of `List.splitOn`.
-/

namespace Gatehouse.Bytes

variable {sep : UInt8} {bs piece : Bytes} {pieces : List Bytes}

/-- A property of all bytes can be checked number by number. -/
theorem forall_byte {P : UInt8 → Prop} (h : ∀ n : Fin 256, P (UInt8.ofFin n)) (b : UInt8) : P b :=
  h b.toFin

/-! ## The first separator -/

theorem splitOnce_of_not_mem (h : sep ∉ bs) : splitOnce sep bs = none := by
  induction bs with
  | nil => rfl
  | cons b bs ih =>
    rw [List.mem_cons, not_or] at h
    rw [splitOnce, if_neg (Ne.symm h.1), ih h.2]
    rfl

theorem splitOnce_append {before after : Bytes} (h : sep ∉ before) :
    splitOnce sep (before ++ sep :: after) = some (before, after) := by
  induction before with
  | nil => exact if_pos rfl
  | cons b before ih =>
    rw [List.mem_cons, not_or] at h
    rw [List.cons_append, splitOnce, if_neg (Ne.symm h.1), ih h.2]
    rfl

/-! ## Pieces -/

theorem splitOn_eq (sep : UInt8) (bs : Bytes) : splitOn sep bs = List.splitOn sep bs := by
  induction bs with
  | nil => rfl
  | cons b bs ih =>
    rw [splitOn, List.splitOn_cons_eq_if_modifyHead, ← ih]
    by_cases h : b = sep
    · simp [h]
    · rw [if_neg h, if_neg (by simpa using h)]
      cases hpieces : splitOn sep bs with
      | nil => exact absurd (ih.symm.trans hpieces) (List.splitOn_ne_nil sep bs)
      | cons piece pieces => rfl

theorem splitOn_ne_nil (sep : UInt8) (bs : Bytes) : splitOn sep bs ≠ [] := by
  rw [splitOn_eq]
  exact List.splitOn_ne_nil sep bs

/-- The pieces together are the text without its separators. -/
theorem flatten_splitOn (sep : UInt8) (bs : Bytes) :
    (splitOn sep bs).flatten = bs.filter (· != sep) := by
  induction bs with
  | nil => rfl
  | cons b bs ih =>
    rw [splitOn]
    by_cases h : b = sep
    · rw [if_pos h, List.filter_cons_of_neg (by simpa using h)]
      exact ih
    · rw [if_neg h, List.filter_cons_of_pos (by simpa using h), ← ih]
      cases splitOn sep bs with
      | nil => rfl
      | cons piece pieces => rfl

theorem mem_of_mem_splitOn {b : UInt8} (hpiece : piece ∈ splitOn sep bs) (hb : b ∈ piece) :
    b ∈ bs ∧ b ≠ sep := by
  have hmem : b ∈ (splitOn sep bs).flatten := List.mem_flatten.mpr ⟨piece, hpiece, hb⟩
  rw [flatten_splitOn, List.mem_filter] at hmem
  exact ⟨hmem.1, by simpa using hmem.2⟩

theorem not_mem_of_mem_splitOn (hpiece : piece ∈ splitOn sep bs) : sep ∉ piece :=
  fun hb => (mem_of_mem_splitOn hpiece hb).2 rfl

/-- A separator in front of every piece gives the text back, with one in front of it. -/
theorem flatMap_splitOn (sep : UInt8) (bs : Bytes) :
    (splitOn sep bs).flatMap (sep :: ·) = sep :: bs := by
  induction bs with
  | nil => rfl
  | cons b bs ih =>
    rw [splitOn]
    by_cases h : b = sep
    · rw [if_pos h, List.flatMap_cons, ih, h]
      rfl
    · rw [if_neg h]
      cases hpieces : splitOn sep bs with
      | nil => exact absurd hpieces (splitOn_ne_nil sep bs)
      | cons piece pieces =>
        rw [hpieces, List.flatMap_cons, List.cons_append, List.cons.injEq] at ih
        rw [List.flatMap_cons, List.cons_append, List.cons_append, ih.2]

/-- Pieces with a separator in front of each are read back behind an empty one. -/
theorem splitOn_flatMap (h : ∀ piece ∈ pieces, sep ∉ piece) :
    splitOn sep (pieces.flatMap (sep :: ·)) = [] :: pieces := by
  induction pieces with
  | nil => rfl
  | cons piece pieces ih =>
    have hpiece : sep ∉ piece := h piece List.mem_cons_self
    have hrest := ih fun q hq => h q (List.mem_cons_of_mem _ hq)
    rw [List.flatMap_cons, List.cons_append, splitOn, if_pos rfl]
    congr 1
    cases pieces with
    | nil =>
      rw [List.flatMap_nil, List.append_nil, splitOn_eq, List.splitOn_eq_singleton hpiece]
    | cons next pieces =>
      rw [List.flatMap_cons, List.cons_append, splitOn, if_pos rfl, List.cons.injEq] at hrest
      rw [List.flatMap_cons, List.cons_append, splitOn_eq,
        List.splitOn_append_cons_self_of_not_mem hpiece, ← splitOn_eq, hrest.2]

/-- A change of bytes that makes and loses no separator changes each piece by itself. -/
theorem splitOn_map {f : UInt8 → UInt8} (hf : ∀ b, f b = sep ↔ b = sep) (bs : Bytes) :
    splitOn sep (bs.map f) = (splitOn sep bs).map (List.map f) := by
  induction bs with
  | nil => rfl
  | cons b bs ih =>
    rw [List.map_cons, splitOn, splitOn, ih]
    by_cases h : b = sep
    · rw [if_pos ((hf b).mpr h), if_pos h]
      rfl
    · rw [if_neg fun h' => h ((hf b).mp h'), if_neg h]
      cases splitOn sep bs with
      | nil => rfl
      | cons piece pieces => rfl

/-! ## Trimming -/

theorem filter_dropWhile (p : UInt8 → Bool) (bs : Bytes) :
    (bs.dropWhile p).filter (!p ·) = bs.filter (!p ·) := by
  induction bs with
  | nil => rfl
  | cons b bs ih =>
    by_cases h : p b
    · rw [List.dropWhile_cons_of_pos h, ih, List.filter_cons_of_neg (by simpa using h)]
    · rw [List.dropWhile_cons_of_neg h]

theorem mem_of_mem_trimBy {p : UInt8 → Bool} {b : UInt8} (h : b ∈ trimBy p bs) : b ∈ bs := by
  rw [trimBy, List.mem_reverse] at h
  exact (List.dropWhile_sublist p).mem (List.mem_reverse.mp ((List.dropWhile_sublist p).mem h))

/-- Trimming takes away no byte that stays. -/
theorem filter_trimBy (p : UInt8 → Bool) (bs : Bytes) :
    (trimBy p bs).filter (!p ·) = bs.filter (!p ·) := by
  rw [trimBy, List.filter_reverse, filter_dropWhile, List.filter_reverse, List.reverse_reverse,
    filter_dropWhile]

/-- What is trimmed off is all that stands outside the first and last bytes that stay. -/
theorem trimBy_append {p : UInt8 → Bool} {before after : Bytes}
    (hbefore : ∀ b ∈ before, p b = true) (hafter : ∀ b ∈ after, p b = true)
    (hhead : ∀ b ∈ bs.head?, p b = false) (hlast : ∀ b ∈ bs.getLast?, p b = false) :
    trimBy p (before ++ bs ++ after) = bs :=
  dropWhile_reverse_append hbefore hafter hhead hlast

/-- Nothing is trimmed off a text whose first and last bytes stay. -/
theorem trimBy_eq_self {p : UInt8 → Bool} (hhead : ∀ b ∈ bs.head?, p b = false)
    (hlast : ∀ b ∈ bs.getLast?, p b = false) : trimBy p bs = bs :=
  dropWhile_reverse_eq_self hhead hlast

theorem dropWhile_map (p : UInt8 → Bool) {f : UInt8 → UInt8} (hf : ∀ b, p (f b) = p b)
    (bs : Bytes) : (bs.map f).dropWhile p = (bs.dropWhile p).map f := by
  rw [List.dropWhile_map]
  congr 2
  funext b
  exact hf b

theorem trimBy_map (p : UInt8 → Bool) {f : UInt8 → UInt8} (hf : ∀ b, p (f b) = p b)
    (bs : Bytes) : trimBy p (bs.map f) = (trimBy p bs).map f := by
  rw [trimBy, trimBy, dropWhile_map p hf, ← List.map_reverse, dropWhile_map p hf,
    ← List.map_reverse]

end Gatehouse.Bytes
