import Mathlib.Data.List.Forall2
import Gatehouse.Path.Pattern
import Gatehouse.Proofs.Bytes
import Gatehouse.Proofs.Lookup

/-!
# Patterns without stars

A pattern without stars accepts a path segment by segment and byte by byte. `mask` makes such a
pattern of any path, the narrowest one that accepts it: a star of the path is matched by any byte,
every other byte by itself only.
-/

namespace Gatehouse.Path

variable {pattern segment path : Bytes}

/-- A byte of a pattern that is not a star matches a byte of a path. -/
def Fits (p s : UInt8) : Prop := p = wildcard ∨ p = s

/-! ## Matching -/

theorem segmentMatches_iff (h : star ∉ pattern) :
    segmentMatches pattern segment = true ↔ List.Forall₂ Fits pattern segment := by
  rw [segmentMatches]
  induction pattern generalizing segment with
  | nil => cases segment <;> simp [matchFrom]
  | cons p ps ih =>
    have hp : p ≠ star := fun heq => h (heq ▸ List.mem_cons_self)
    have hps : star ∉ ps := fun hmem => h (List.mem_cons_of_mem _ hmem)
    cases segment with
    | nil => simp [matchFrom, hp]
    | cons s ss =>
      rw [matchFrom, List.forall₂_cons]
      by_cases hfits : p = wildcard ∨ p = s
      · rw [if_pos hfits, ih hps]
        exact ⟨fun hrest => ⟨hfits, hrest⟩, fun hboth => hboth.2⟩
      · rw [if_neg hfits, if_neg hp]
        constructor
        · rintro ⟨⟩
        · intro hboth
          exact absurd hboth.1 hfits
      · rintro _ _ _ ⟨⟩

theorem matchSegments_iff {patterns paths : List Bytes} (h : ∀ p ∈ patterns, star ∉ p) :
    matchSegments patterns paths = true ↔ List.Forall₂ (List.Forall₂ Fits) patterns paths := by
  induction patterns generalizing paths with
  | nil => cases paths <;> simp [matchSegments]
  | cons p ps ih =>
    obtain ⟨hp, hps⟩ := List.forall_mem_cons.mp h
    -- Without stars no segment stands for any number of them.
    have hany : p ≠ anySegments := by
      rintro rfl
      exact hp (by decide)
    cases ps with
    | nil =>
      match paths with
      | [] => simp [matchSegments, hany]
      | [s] => simp [matchSegments, hany, segmentMatches_iff hp]
      | _ :: _ :: _ => simp [matchSegments, hany]
    | cons next rest =>
      cases paths with
      | nil => simp [matchSegments, hany]
      | cons s left =>
        rw [matchSegments, if_neg hany, List.forall₂_cons, Bool.and_eq_true, segmentMatches_iff hp,
          ih hps]

/-! ## Segments -/

/-- The segments of a path together are the path without its slashes. -/
theorem flatten_segments (path : Bytes) :
    (segments path).flatten = path.filter (· != slash) := by
  have htrim := Bytes.filter_trimBy (· == slash) path
  rw [segments]
  split
  · next hempty =>
    rw [hempty] at htrim
    exact htrim
  · rw [Bytes.flatten_splitOn]
    exact htrim

/-! ## Masks -/

/-- A byte of a pattern for a byte of a path. -/
def maskByte (b : UInt8) : UInt8 := if b = star then wildcard else b

theorem maskByte_star : maskByte star = wildcard := if_pos rfl

theorem maskByte_of_ne {b : UInt8} (h : b ≠ star) : maskByte b = b := if_neg h

theorem maskByte_eq_slash (b : UInt8) : maskByte b = slash ↔ b = slash := by
  by_cases h : b = star
  · subst h
    decide
  · rw [maskByte_of_ne h]

theorem fits_maskByte {b c : UInt8} : Fits (maskByte b) c ↔ b = star ∨ b = wildcard ∨ b = c := by
  by_cases h : b = star
  · subst h
    simp [maskByte_star, Fits]
  · rw [maskByte_of_ne h, Fits]
    exact ⟨.inr, fun hfits => hfits.resolve_left h⟩

/-- The text of the narrowest pattern without stars that accepts a path. -/
def mask (path : Bytes) : Bytes := path.map maskByte

theorem star_not_mem_mask (path : Bytes) : star ∉ mask path := by
  intro hmem
  obtain ⟨b, -, hb⟩ := List.mem_map.mp hmem
  by_cases h : b = star
  · subst h
    cases hb
  · rw [maskByte_of_ne h] at hb
    exact h hb

theorem segments_mask (path : Bytes) : segments (mask path) = (segments path).map mask := by
  have htrim : Bytes.trimBy (· == slash) (mask path) = mask (Bytes.trimBy (· == slash) path) := by
    apply Bytes.trimBy_map
    intro b
    rw [Bool.eq_iff_iff, beq_iff_eq, beq_iff_eq]
    exact maskByte_eq_slash b
  rw [segments, segments, htrim]
  cases Bytes.trimBy (· == slash) path with
  | nil => rfl
  | cons b bs => exact Bytes.splitOn_map maskByte_eq_slash (b :: bs)

/-- The pattern of a mask accepts by the bytes of the segments alone. -/
theorem accepts_mask_iff {other : Bytes} (hne : path ≠ []) :
    (Pattern.ofText (mask path)).accepts other = true ↔
      List.Forall₂ (List.Forall₂ fun b c => Fits (maskByte b) c) (segments path)
        (segments other) := by
  have htext : ¬ (mask path).isEmpty = true := by simpa [mask] using hne
  have hstars : ∀ p ∈ (segments path).map mask, star ∉ p := by
    intro p hp
    obtain ⟨s, -, rfl⟩ := List.mem_map.mp hp
    exact star_not_mem_mask s
  rw [Pattern.accepts, Pattern.ofText, if_neg htext, segments_mask, matchSegments_iff hstars,
    List.forall₂_map_left_iff]
  simp only [mask, List.forall₂_map_left_iff]

theorem accepts_mask_self (path : Bytes) : (Pattern.ofText (mask path)).accepts path = true := by
  by_cases hne : path = []
  · subst hne
    decide
  · rw [accepts_mask_iff hne, List.forall₂_same]
    intro s _
    rw [List.forall₂_same]
    intro b _
    exact fits_maskByte.mpr (.inr (.inr rfl))

/-- What the mask of a path accepts has the bytes of the path in their order, up to its stars, its
question marks and slashes. -/
theorem forall₂_of_accepts_mask {other : Bytes} (hne : path ≠ [])
    (h : (Pattern.ofText (mask path)).accepts other = true) :
    List.Forall₂ (fun b c => b = star ∨ b = wildcard ∨ b = c) (path.filter (· != slash))
      (other.filter (· != slash)) := by
  have hbytes := List.rel_flatten ((accepts_mask_iff hne).mp h)
  rw [flatten_segments, flatten_segments] at hbytes
  exact hbytes.imp fun b c => fits_maskByte.mp

theorem mem_of_accepts_mask {other : Bytes} (hne : path ≠ [])
    (h : (Pattern.ofText (mask path)).accepts other = true) :
    ∀ b ∈ path, b = star ∨ b = wildcard ∨ b = slash ∨ b ∈ other := by
  intro b hb
  by_cases hslash : b = slash
  · exact .inr (.inr (.inl hslash))
  · have hmem : b ∈ path.filter (· != slash) := List.mem_filter.mpr ⟨hb, bne_iff_ne.mpr hslash⟩
    obtain ⟨c, hc, hstar | hwild | rfl⟩ := mem_of_forall₂ (forall₂_of_accepts_mask hne h) b hmem
    · exact .inl hstar
    · exact .inr (.inl hwild)
    · exact .inr (.inr (.inr (List.mem_of_mem_filter hc)))

end Gatehouse.Path
