import Mathlib.Data.List.Forall2
import Mathlib.Data.List.TakeWhile
import Gatehouse.Proofs.Path.Pattern

/-!
# What a pattern accepts

A pattern describes a sequence by cutting it into consecutive blocks, one for each element of the
pattern: a special element takes any block, every other element takes a block of one that it fits
(`Cut`). Both levels of path patterns are of this kind. The bytes of a segment are cut with `*` as the
special element, and the segments of a path with `**`.

Neither matcher accepts more than that. The one for segments goes back to its last star, and what it
finds from there is again a cut behind that star (`cut_of_matchFrom`).
-/

namespace Gatehouse.Path

/-! ## Cuts -/

section Cut

variable {α β : Type} {any p : α} {fits fits' : α → β → Prop} {ps qs : List α} {x : β}
  {xs ys whole : List β}

/-- What one element of a pattern takes. -/
def Takes (any : α) (fits : α → β → Prop) (p : α) (block : List β) : Prop :=
  p = any ∨ ∃ x, block = [x] ∧ fits p x

/-- A sequence can be cut into consecutive blocks, one for each element of a pattern. -/
def Cut (any : α) (fits : α → β → Prop) (pattern : List α) (whole : List β) : Prop :=
  ∃ blocks, List.Forall₂ (Takes any fits) pattern blocks ∧ blocks.flatten = whole

theorem cut_nil_iff : Cut any fits [] whole ↔ whole = [] := by
  constructor
  · rintro ⟨_, ⟨⟩, rfl⟩
    rfl
  · rintro rfl
    exact ⟨[], .nil, rfl⟩

/-- The special element takes some beginning, which may be empty or all there is. -/
theorem cut_any_iff : Cut any fits (any :: ps) whole ↔ ∃ rest, rest <:+ whole ∧ Cut any fits ps rest := by
  constructor
  · rintro ⟨_, hblocks, rfl⟩
    cases hblocks with
    | @cons _ block _ blocks _ hrest =>
      exact ⟨blocks.flatten, ⟨block, rfl⟩, blocks, hrest, rfl⟩
  · rintro ⟨_, ⟨block, rfl⟩, blocks, hrest, rfl⟩
    exact ⟨block :: blocks, .cons (.inl rfl) hrest, rfl⟩

/-- Every other element takes exactly one. -/
theorem cut_cons_iff (hp : p ≠ any) :
    Cut any fits (p :: ps) whole ↔ ∃ x xs, whole = x :: xs ∧ fits p x ∧ Cut any fits ps xs := by
  constructor
  · rintro ⟨_, hblocks, rfl⟩
    cases hblocks with
    | @cons _ _ _ blocks htakes hrest =>
      obtain ⟨x, rfl, hfits⟩ := htakes.resolve_left hp
      exact ⟨x, blocks.flatten, rfl, hfits, blocks, hrest, rfl⟩
  · rintro ⟨x, _, rfl, hfits, blocks, hrest, rfl⟩
    exact ⟨[x] :: blocks, .cons (.inr ⟨x, rfl, hfits⟩) hrest, rfl⟩

theorem cut_singleton_iff : Cut any fits [p] whole ↔ Takes any fits p whole := by
  constructor
  · rintro ⟨_, hblocks, rfl⟩
    cases hblocks with
    | @cons _ block _ _ htakes hrest =>
      cases hrest
      rwa [List.flatten_singleton]
  · intro h
    exact ⟨[whole], .cons h .nil, List.flatten_singleton⟩

/-- Any element may take one that it fits. -/
theorem Cut.cons (hfits : fits p x) (h : Cut any fits ps xs) : Cut any fits (p :: ps) (x :: xs) := by
  obtain ⟨blocks, hblocks, rfl⟩ := h
  exact ⟨[x] :: blocks, .cons (.inr ⟨x, rfl, hfits⟩) hblocks, rfl⟩

/-- The special element may take one, whichever it is. -/
theorem Cut.skip (h : Cut any fits ps xs) : Cut any fits (any :: ps) (x :: xs) :=
  cut_any_iff.mpr ⟨xs, List.suffix_cons x xs, h⟩

theorem Cut.mono (himp : ∀ p x, fits p x → fits' p x) (h : Cut any fits ps xs) :
    Cut any fits' ps xs := by
  obtain ⟨blocks, hblocks, hwhole⟩ := h
  refine ⟨blocks, hblocks.imp ?_, hwhole⟩
  rintro p block (hany | ⟨x, rfl, hfits⟩)
  · exact .inl hany
  · exact .inr ⟨x, rfl, himp p x hfits⟩

/-- What begins with the special element can be cut behind anything else, too. -/
theorem Cut.of_suffix (h : Cut any fits (any :: ps) xs) (hsuffix : xs <:+ ys) :
    Cut any fits (any :: ps) ys := by
  obtain ⟨rest, hrest, hcut⟩ := cut_any_iff.mp h
  exact cut_any_iff.mpr ⟨rest, hrest.trans hsuffix, hcut⟩

/-- Special elements alone can take nothing. -/
theorem cut_nil_of_forall (h : ∀ p ∈ ps, p = any) : Cut any fits ps [] := by
  induction ps with
  | nil => exact cut_nil_iff.mpr rfl
  | cons p ps ih =>
    obtain ⟨rfl, hps⟩ := List.forall_mem_cons.mp h
    exact cut_any_iff.mpr ⟨[], List.suffix_rfl, ih hps⟩

end Cut

/-! ## Segments -/

variable {pattern segment path : Bytes} {patterns paths : List Bytes}

/-- The rest of a pattern behind a star is cut somewhere behind the bytes that the star has skipped,
and then the star takes one byte more. -/
theorem cut_of_skipped {ps ss : Bytes} (s : UInt8)
    (h : Cut star Fits ps ss ∨ ∃ r ∈ some (⟨ps, ss⟩ : Retry), Cut star Fits (star :: r.pattern) r.segment) :
    Cut star Fits (star :: ps) (s :: ss) := by
  rcases h with hcut | ⟨r, hr, hcut⟩
  · exact hcut.skip
  · obtain rfl := Option.mem_some.mp hr
    exact hcut.of_suffix (List.suffix_cons s ss)

/-- What is accepted is cut from here on, or else from where the last star began to skip. -/
theorem cut_of_matchFrom {retry : Option Retry} (h : matchFrom retry pattern segment = true) :
    Cut star Fits pattern segment ∨
      ∃ r ∈ retry, Cut star Fits (star :: r.pattern) r.segment := by
  fun_induction matchFrom retry pattern segment with
  | case1 retry ps =>
    exact .inl (cut_nil_of_forall fun p hp => eq_of_beq (List.all_eq_true.mp h p hp))
  | case2 retry s ss p ps hfits ih => exact (ih h).imp_left (Cut.cons hfits)
  | case3 retry s ss ps _ ih =>
    -- the star either takes nothing or goes on from the place that is noted for it
    rcases ih h with hcut | ⟨r, hr, hcut⟩
    · exact .inl (cut_any_iff.mpr ⟨s :: ss, List.suffix_rfl, hcut⟩)
    · obtain rfl := Option.mem_some.mp hr
      exact .inl hcut
  | case4 _ _ _ _ _ _ resume skipped ms ih =>
    exact .inr ⟨_, rfl, cut_of_skipped skipped (ih h)⟩
  | case5 => cases h
  | case6 _ _ resume skipped ms ih => exact .inr ⟨_, rfl, cut_of_skipped skipped (ih h)⟩
  | case7 => cases h

/-- A segment that matches is the pattern with each star replaced by a run of bytes and each question
mark by a byte. -/
theorem cut_of_segmentMatches (h : segmentMatches pattern segment = true) :
    Cut star Fits pattern segment := by
  rcases cut_of_matchFrom h with hcut | ⟨_, ⟨⟩, _⟩
  exact hcut

/-! ## Paths -/

/-- A segment of a pattern other than `**` matches a segment of a path. -/
def Matched (p s : Bytes) : Prop := segmentMatches p s = true

/-- What is left behind a beginning is what begins with the first element that stops it. -/
theorem dropWhile_eq_cons_iff {α : Type} {skips : α → Bool} {x : α} {xs whole : List α} :
    whole.dropWhile skips = x :: xs ↔
      ∃ before, whole = before ++ x :: xs ∧ (∀ y ∈ before, skips y = true) ∧ ¬ skips x = true := by
  constructor
  · intro h
    refine ⟨whole.takeWhile skips, ?_, fun y hy => List.mem_takeWhile_imp hy, ?_⟩
    · rw [← h, List.takeWhile_append_dropWhile]
    · have hhead := List.head?_dropWhile_not skips whole
      rw [h] at hhead
      exact Bool.eq_false_iff.mp hhead
  · rintro ⟨before, rfl, hbefore, hx⟩
    rw [List.dropWhile_append_of_pos hbefore, List.dropWhile_cons_of_neg hx]

/-- The last segment of a pattern takes all that is left. -/
theorem matchSegments_last_iff :
    matchSegments [pattern] paths = true ↔ Takes anySegments Matched pattern paths := by
  rw [matchSegments.eq_def]
  dsimp only
  rw [Bool.or_eq_true, decide_eq_true_eq, Takes]
  apply or_congr_right
  rcases paths with _ | ⟨s, _ | ⟨s', left⟩⟩
  · simp
  · simp [Matched]
  · simp

/-- Behind `**` the next segment of the pattern takes the first segment of the path that it matches. -/
theorem matchSegments_any_iff {next : Bytes} :
    matchSegments (anySegments :: next :: patterns) paths = true ↔
      ∃ before s left, paths = before ++ s :: left ∧ (∀ b ∈ before, ¬ Matched next b) ∧
        Matched next s ∧ matchSegments patterns left = true := by
  have hskip (b : Bytes) : (!segmentMatches next b) = true ↔ ¬ Matched next b := by
    rw [Bool.not_eq_true', Matched, Bool.not_eq_true]
  rw [matchSegments.eq_def]
  dsimp only
  rw [if_pos rfl]
  cases hleft : paths.dropWhile fun s => !segmentMatches next s with
  | nil =>
    constructor
    · rintro ⟨⟩
    · rintro ⟨before, s, left, rfl, -, hs, -⟩
      have hall := List.dropWhile_eq_nil_iff.mp hleft s (List.mem_append_right _ List.mem_cons_self)
      exact absurd hs ((hskip s).mp hall)
  | cons s left =>
    obtain ⟨before, hpaths, hbefore, hs⟩ := dropWhile_eq_cons_iff.mp hleft
    constructor
    · intro hrest
      exact ⟨before, s, left, hpaths, fun b hb => (hskip b).mp (hbefore b hb),
        not_not.mp fun h => hs ((hskip s).mpr h), hrest⟩
    · rintro ⟨before', s', left', hpaths', hbefore', hs', hrest⟩
      have hleft' : (paths.dropWhile fun s => !segmentMatches next s) = s' :: left' :=
        dropWhile_eq_cons_iff.mpr ⟨before', hpaths', fun b hb => (hskip b).mpr (hbefore' b hb),
          fun h => (hskip s').mp h hs'⟩
      rw [hleft] at hleft'
      obtain ⟨-, rfl⟩ := List.cons.inj hleft'
      exact hrest

/-- Any other segment of the pattern takes the segment of the path that comes next. -/
theorem matchSegments_cons_iff {next : Bytes} (h : pattern ≠ anySegments) :
    matchSegments (pattern :: next :: patterns) paths = true ↔
      ∃ s left, paths = s :: left ∧ Matched pattern s ∧
        matchSegments (next :: patterns) left = true := by
  rw [matchSegments.eq_def]
  dsimp only
  rw [if_neg h]
  cases paths with
  | nil => simp
  | cons s left => simp [Matched]

/-- A path is accepted only if it can be cut. -/
theorem cut_of_matchSegments : ∀ {patterns paths : List Bytes},
    matchSegments patterns paths = true → Cut anySegments Matched patterns paths
  | [], _, h => cut_nil_iff.mpr (List.isEmpty_iff.mp h)
  | [_], _, h => cut_singleton_iff.mpr (matchSegments_last_iff.mp h)
  | p :: next :: rest, paths, h => by
    by_cases hp : p = anySegments
    · subst hp
      obtain ⟨before, s, left, rfl, -, hs, hrest⟩ := matchSegments_any_iff.mp h
      exact cut_any_iff.mpr ⟨s :: left, ⟨before, rfl⟩, (cut_of_matchSegments hrest).cons hs⟩
    · obtain ⟨s, left, rfl, hs, hrest⟩ := (matchSegments_cons_iff hp).mp h
      exact (cut_of_matchSegments hrest).cons hs

/-! ## Texts -/

/-- The segments of a text are what its slashes separate, without those at both ends. -/
theorem intercalate_segments (text : Bytes) :
    [slash].intercalate (segments text) = Bytes.trimBy (· == slash) text := by
  rw [segments]
  split
  · next hempty => exact hempty.symm
  · rw [Bytes.splitOn_eq, List.intercalate_splitOn]

theorem not_mem_of_mem_segments {text s : Bytes} (h : s ∈ segments text) : slash ∉ s := by
  rw [segments] at h
  split at h
  · cases h
  · exact Bytes.not_mem_of_mem_splitOn h

/-- **A pattern accepts no path but those that can be cut along it.** The segments of the path fall
into consecutive blocks, one for each segment of the pattern: `**` takes any number of segments, and
every other segment of the pattern takes exactly one, which is the segment of the pattern with each `*`
replaced by a run of bytes and each `?` by a byte. -/
theorem accepted_path_is_cut (hne : pattern ≠ [])
    (h : accepts pattern path = true ∨ (Pattern.ofText pattern).accepts path = true) :
    Cut anySegments (Cut star Fits) (segments pattern) (segments path) ∧
      ∀ text, [slash].intercalate (segments text) = Bytes.trimBy (· == slash) text ∧
        ∀ s ∈ segments text, slash ∉ s := by
  refine ⟨?_, fun text => ⟨intercalate_segments text, fun s hs => not_mem_of_mem_segments hs⟩⟩
  have hempty : ¬ pattern.isEmpty = true := by simpa using hne
  have hmatch : matchSegments (segments pattern) (segments path) = true := by
    rcases h with h | h
    · rwa [accepts, if_neg hempty] at h
    · rwa [Pattern.accepts, Pattern.ofText, if_neg hempty] at h
  exact (cut_of_matchSegments hmatch).mono fun p s => cut_of_segmentMatches

/-- The star has to skip the first `b`, and `**` a segment. -/
theorem accepted_path_is_cut_star_twice :
    let pattern := Bytes.ofString "/a*b?/**/c"
    let path := Bytes.ofString "//axbxb1/q/c/"
    accepts pattern path = true ∧
      Cut anySegments (Cut star Fits) (segments pattern) (segments path) := by
  intro pattern path
  have hpattern : segments pattern = [[0x61, star, 0x62, wildcard], anySegments, [0x63]] := by
    decide +kernel
  have hpath : segments path = [[0x61, 0x78, 0x62, 0x78, 0x62, 0x31], [0x71], [0x63]] := by
    decide +kernel
  have haccepts : accepts pattern path = true := by
    rw [accepts, if_neg (by decide), hpattern, hpath]
    cbv
  exact ⟨haccepts, (accepted_path_is_cut (by decide) (.inl haccepts)).1⟩

end Gatehouse.Path
