import Gatehouse.Proofs.Path.Loss

/-!
# What matching a segment loses

The matcher for segments goes back to its last star only. An earlier star never has to take more
once a later one has been reached, since the later one takes up whatever is left over. So nothing is
lost as long as the segment has no star of its own (`matchFrom_of_recoverable`). A star of the
segment, however, is first taken by a star of the pattern like any other byte, and then there is no
place to go back to (`not_matched_behind_star`).
-/

namespace Gatehouse.Path

/-! ## Cuts in two parts -/

section Cut

variable {α β : Type} {any : α} {fits : α → β → Prop} {ps qs : List α} {x : β} {xs ys whole : List β}

theorem Cut.append (h : Cut any fits ps xs) (h' : Cut any fits qs ys) :
    Cut any fits (ps ++ qs) (xs ++ ys) := by
  obtain ⟨blocks, hblocks, rfl⟩ := h
  obtain ⟨blocks', hblocks', rfl⟩ := h'
  exact ⟨blocks ++ blocks', List.rel_append hblocks hblocks', List.flatten_append⟩

theorem exists_of_cut_append (h : Cut any fits (ps ++ qs) whole) :
    ∃ xs ys, whole = xs ++ ys ∧ Cut any fits ps xs ∧ Cut any fits qs ys := by
  obtain ⟨blocks, hblocks, rfl⟩ := h
  have hps := List.forall₂_take ps.length hblocks
  have hqs := List.forall₂_drop ps.length hblocks
  rw [List.take_left] at hps
  rw [List.drop_left] at hqs
  refine ⟨_, _, ?_, ⟨_, hps, rfl⟩, ⟨_, hqs, rfl⟩⟩
  rw [← List.flatten_append, List.take_append_drop]

/-- A pattern can have the special element in the place of any part of it. -/
theorem Cut.widen {rs : List α} (h : Cut any fits (ps ++ qs ++ rs) whole) :
    Cut any fits (ps ++ any :: rs) whole := by
  obtain ⟨front, back, rfl, hfront, hback⟩ := exists_of_cut_append h
  obtain ⟨left, middle, rfl, hleft, -⟩ := exists_of_cut_append hfront
  rw [List.append_assoc]
  exact hleft.append (cut_any_iff.mpr ⟨back, List.suffix_append middle back, hback⟩)

theorem Cut.length_eq (h : Cut any fits ps xs) (hps : any ∉ ps) : ps.length = xs.length := by
  obtain ⟨blocks, hblocks, rfl⟩ := h
  induction hblocks with
  | nil => rfl
  | @cons p block ps blocks htakes _ ih =>
    obtain ⟨hp, hps⟩ := not_or.mp (mt List.mem_cons.mpr hps)
    obtain ⟨x, rfl, -⟩ := htakes.resolve_left (Ne.symm hp)
    rw [List.flatten_cons, List.singleton_append, List.length_cons, List.length_cons, ih hps]

/-- Behind elements that each take one, what is left of a sequence is cut along what is left of the
pattern. -/
theorem Cut.behind (h : Cut any fits (ps ++ qs) (xs ++ ys)) (hps : any ∉ ps)
    (hlength : ps.length = xs.length) : Cut any fits qs ys := by
  obtain ⟨xs', ys', heq, hcut, hrest⟩ := exists_of_cut_append h
  obtain ⟨-, rfl⟩ := List.append_inj heq (hlength.symm.trans (hcut.length_eq hps))
  exact hrest

/-- With the special element in front, the rest of the pattern cuts a suffix of the rest. -/
theorem Cut.exists_suffix (h : Cut any fits (any :: (ps ++ qs)) (xs ++ ys)) (hps : any ∉ ps)
    (hlength : ps.length = xs.length) : ∃ rest, rest <:+ ys ∧ Cut any fits qs rest := by
  obtain ⟨suffix, hsuffix, hcut⟩ := cut_any_iff.mp h
  obtain ⟨taken, rest, rfl, htaken, hrest⟩ := exists_of_cut_append hcut
  have hle := hsuffix.length_le
  rw [List.length_append, List.length_append, ← htaken.length_eq hps, hlength] at hle
  exact ⟨rest, List.suffix_of_suffix_length_le ((List.suffix_append taken rest).trans hsuffix)
    (List.suffix_append xs ys) (Nat.le_of_add_le_add_left hle), hrest⟩

/-- What is not cut from its first element on is cut further behind. -/
theorem Cut.of_not (h : Cut any fits (any :: ps) (x :: xs)) (hnot : ¬ Cut any fits ps (x :: xs)) :
    Cut any fits (any :: ps) xs := by
  obtain ⟨rest, hrest, hcut⟩ := cut_any_iff.mp h
  rcases List.suffix_cons_iff.mp hrest with rfl | hrest
  · exact absurd hcut hnot
  · exact cut_any_iff.mpr ⟨rest, hrest, hcut⟩

theorem not_cut_of_not_fits {p : α} (hp : p ≠ any) (hfits : ¬ fits p x) :
    ¬ Cut any fits (p :: ps) (x :: xs) := by
  intro hcut
  obtain ⟨_, _, heq, hfit, -⟩ := (cut_cons_iff hp).mp hcut
  obtain ⟨rfl, -⟩ := List.cons.inj heq
  exact hfits hfit

theorem not_cut_nil : ¬ Cut any fits [] (x :: xs) :=
  fun hcut => List.cons_ne_nil x xs (cut_nil_iff.mp hcut)

theorem forall_eq_of_cut_nil (h : Cut any fits ps []) : ∀ p ∈ ps, p = any := by
  induction ps with
  | nil => exact nofun
  | cons p ps ih =>
    by_cases hp : p = any
    · subst hp
      obtain ⟨rest, hrest, hcut⟩ := cut_any_iff.mp h
      rw [List.suffix_nil.mp hrest] at hcut
      exact List.forall_mem_cons.mpr ⟨rfl, ih hcut⟩
    · obtain ⟨_, _, ⟨⟩, -⟩ := (cut_cons_iff hp).mp h

end Cut

/-! ## Segments without stars -/

variable {pattern segment : Bytes} {retry : Option Retry}

/-- What is left can be matched: without a star so far from here on, and behind a star from
somewhere behind the place that is marked for it. Since then the bytes of the pattern have taken one
byte each. -/
def Recoverable (retry : Option Retry) (pattern segment : Bytes) : Prop :=
  match retry with
  | none => star ∉ segment ∧ Cut star Fits pattern segment
  | some r => star ∉ r.segment ∧ Cut star Fits (star :: r.pattern) r.segment ∧
      ∃ plain taken, r.pattern = plain ++ pattern ∧ r.segment = taken ++ segment ∧ star ∉ plain ∧
        plain.length = taken.length

theorem recoverable_at_mark (hsegment : star ∉ segment) (h : Cut star Fits (star :: pattern) segment) :
    Recoverable (some ⟨pattern, segment⟩) pattern segment :=
  ⟨hsegment, h, [], [], rfl, rfl, List.not_mem_nil, rfl⟩

namespace Recoverable

theorem not_mem (h : Recoverable retry pattern segment) : star ∉ segment := by
  cases retry with
  | none => exact h.1
  | some r =>
    obtain ⟨hstar, -, plain, taken, -, hsegment, -⟩ := h
    rw [hsegment] at hstar
    exact fun hmem => hstar (List.mem_append_right taken hmem)

/-- What is left of the pattern can be cut out of the end of what is left of the segment. -/
theorem exists_suffix (h : Recoverable retry pattern segment) :
    ∃ rest, rest <:+ segment ∧ Cut star Fits pattern rest := by
  cases retry with
  | none => exact ⟨segment, List.suffix_rfl, h.2⟩
  | some r =>
    obtain ⟨-, hcut, plain, taken, hpattern, hsegment, hplain, hlength⟩ := h
    rw [hpattern, hsegment] at hcut
    exact hcut.exists_suffix hplain hlength

theorem forall_eq_star (h : Recoverable retry pattern []) : ∀ p ∈ pattern, p = star := by
  obtain ⟨rest, hrest, hcut⟩ := h.exists_suffix
  rw [List.suffix_nil.mp hrest] at hcut
  exact forall_eq_of_cut_nil hcut

/-- A byte that fits is taken. -/
theorem cons {p s : UInt8} {ps ss : Bytes} (h : Recoverable retry (p :: ps) (s :: ss))
    (hfits : Fits p s) : Recoverable retry ps ss := by
  have hstar := h.not_mem
  have hs : s ≠ star := fun heq => hstar (heq ▸ List.mem_cons_self)
  have hp : p ≠ star := by
    rintro rfl
    exact hfits.elim (by decide) fun heq => hs heq.symm
  cases retry with
  | none =>
    obtain ⟨_, _, heq, -, hcut⟩ := (cut_cons_iff hp).mp h.2
    obtain ⟨-, rfl⟩ := List.cons.inj heq
    exact ⟨fun hmem => hstar (List.mem_cons_of_mem s hmem), hcut⟩
  | some r =>
    obtain ⟨hsegment, hcut, plain, taken, hplain, htaken, hnot, hlength⟩ := h
    refine ⟨hsegment, hcut, plain ++ [p], taken ++ [s], ?_, ?_, ?_, ?_⟩
    · rw [hplain, List.append_assoc, List.singleton_append]
    · rw [htaken, List.append_assoc, List.singleton_append]
    · rw [List.mem_append, List.mem_singleton, not_or]
      exact ⟨hnot, hp.symm⟩
    · rw [List.length_append, List.length_append, hlength, List.length_singleton,
        List.length_singleton]

/-- A star that is reached takes up what any star before it leaves over. -/
theorem mark {ps : Bytes} (h : Recoverable retry (star :: ps) segment) :
    Recoverable (some ⟨ps, segment⟩) ps segment := by
  obtain ⟨rest, hrest, hcut⟩ := h.exists_suffix
  exact recoverable_at_mark h.not_mem (hcut.of_suffix hrest)

/-- Where no cut begins, the last star takes one byte more. -/
theorem goBack {resume ms : Bytes} {skipped : UInt8}
    (h : Recoverable (some ⟨resume, skipped :: ms⟩) pattern segment)
    (hnot : ¬ Cut star Fits pattern segment) : Recoverable (some ⟨resume, ms⟩) resume ms := by
  obtain ⟨hstar, hcut, plain, taken, rfl, hsegment, hplain, hlength⟩ := h
  refine recoverable_at_mark (fun hmem => hstar (List.mem_cons_of_mem skipped hmem)) (hcut.of_not ?_)
  intro hfirst
  dsimp only at hsegment
  rw [hsegment] at hfirst
  exact hnot (hfirst.behind hplain hlength)

/-- There is a place to go back to. -/
theorem exists_retry {s : UInt8} {ss : Bytes} (h : Recoverable retry pattern (s :: ss))
    (hnot : ¬ Cut star Fits pattern (s :: ss)) :
    ∃ resume skipped ms, retry = some ⟨resume, skipped :: ms⟩ := by
  cases retry with
  | none => exact absurd h.2 hnot
  | some r =>
    obtain ⟨-, -, plain, taken, -, hsegment, -, -⟩ := h
    obtain ⟨resume, marked⟩ := r
    obtain rfl : marked = taken ++ s :: ss := hsegment
    cases taken with
    | nil => exact ⟨resume, s, ss, rfl⟩
    | cons t taken => exact ⟨resume, t, taken ++ s :: ss, rfl⟩

end Recoverable

/-- Whatever can still be matched is matched. -/
theorem matchFrom_of_recoverable (h : Recoverable retry pattern segment) :
    matchFrom retry pattern segment = true := by
  fun_induction matchFrom retry pattern segment with
  | case1 retry ps =>
    rw [List.all_eq_true]
    exact fun p hp => beq_iff_eq.mpr (h.forall_eq_star p hp)
  | case2 retry s ss p ps hfits ih => exact ih (h.cons hfits)
  | case3 retry s ss ps _ ih => exact ih h.mark
  | case4 s ss p ps hfits hstar resume skipped ms ih =>
    exact ih (h.goBack (not_cut_of_not_fits hstar hfits))
  | case5 retry s ss p ps hfits hstar hnone =>
    obtain ⟨resume, skipped, ms, rfl⟩ := h.exists_retry (not_cut_of_not_fits hstar hfits)
    exact absurd rfl (hnone resume skipped ms)
  | case6 s ss resume skipped ms ih => exact ih (h.goBack not_cut_nil)
  | case7 retry s ss hnone =>
    obtain ⟨resume, skipped, ms, rfl⟩ := h.exists_retry not_cut_nil
    exact absurd rfl (hnone resume skipped ms)

theorem segmentMatches_of_cut (h : star ∉ segment) (hcut : Cut star Fits pattern segment) :
    segmentMatches pattern segment = true :=
  matchFrom_of_recoverable ⟨h, hcut⟩

/-- **Going back to the last star loses nothing.** A segment that has no star of its own matches
exactly if it is the pattern with each `*` replaced by some run of bytes and each `?` by one byte.
-/
theorem segmentMatches_iff_cut (h : star ∉ segment) :
    segmentMatches pattern segment = true ↔ Cut star Fits pattern segment :=
  ⟨cut_of_segmentMatches, segmentMatches_of_cut h⟩

/-- Both stars of `*ab*c` have to skip in `aabacbc` what looks like what follows them. -/
theorem segmentMatches_iff_cut_two_stars :
    let pattern := [star, 0x61, 0x62, star, 0x63]
    let segment := [0x61, 0x61, 0x62, 0x61, 0x63, 0x62, 0x63]
    star ∉ segment ∧ segmentMatches pattern segment = true := by
  intro pattern segment
  have hstar : star ∉ segment := by decide
  have htakes : List.Forall₂ (Takes star Fits) pattern [[0x61], [0x61], [0x62], [0x61, 0x63, 0x62], [0x63]] :=
    .cons (.inl rfl) <| .cons (.inr ⟨_, rfl, .inr rfl⟩) <| .cons (.inr ⟨_, rfl, .inr rfl⟩) <|
      .cons (.inl rfl) <| .cons (.inr ⟨_, rfl, .inr rfl⟩) .nil
  exact ⟨hstar, (segmentMatches_iff_cut hstar).mpr ⟨_, htakes, rfl⟩⟩

/-! ## Segments with stars -/

/-- A star that is marked at a place skips whatever follows it. -/
theorem matchFrom_nil_of_retry (segment : Bytes) :
    matchFrom (some ⟨[], segment⟩) [] segment = true := by
  induction segment with
  | nil => rw [matchFrom]; rfl
  | cons s ss ih => rw [matchFrom]; exact ih

theorem segmentMatches_star_iff :
    segmentMatches [star] segment = true ↔ segment = [star] ∨ segment.head? ≠ some star := by
  rw [segmentMatches]
  rcases segment with _ | ⟨s, ss⟩
  · rw [matchFrom]
    decide
  by_cases hs : s = star
  · subst hs
    have hrest := matchFrom_append [star] [] ss
    rw [List.append_nil, List.singleton_append] at hrest
    rw [hrest]
    cases ss with
    | nil => simp [matchFrom]
    | cons s ss => simp [matchFrom]
  · have hskip : matchFrom none [star] (s :: ss) = true := by
      rw [matchFrom, if_neg, if_pos rfl, matchFrom_nil_of_retry]
      · exact fun hfits => hfits.elim (by decide) fun heq => hs heq.symm
      · rintro _ _ _ ⟨⟩
    simp [hskip, hs]

/-- A star of the pattern that takes a star of the segment skips nothing behind it: it is no place
to go back to. -/
theorem not_matched_behind_star (front back : Bytes) :
    segmentMatches (front ++ wildcard :: mask back) (front ++ star :: back) = true ∧
      ¬ segmentMatches (front ++ star :: wildcard :: mask back) (front ++ star :: back) = true := by
  have hmask : star ∉ wildcard :: mask back := by
    rw [List.mem_cons, not_or]
    exact ⟨by decide, star_not_mem_mask back⟩
  constructor
  · rw [segmentMatches, matchFrom_append]
    refine (segmentMatches_iff hmask).mpr (.cons (.inl rfl) ?_)
    rw [mask, List.forall₂_map_left_iff, List.forall₂_same]
    exact fun b _ => fits_maskByte.mpr (.inr (.inr rfl))
  · rw [List.append_cons front star (wildcard :: mask back), List.append_cons front star back,
      segmentMatches, matchFrom_append]
    intro hmatch
    have hlength := ((segmentMatches_iff hmask).mp hmatch).length_eq
    rw [List.length_cons, mask, List.length_map] at hlength
    exact absurd hlength (Nat.succ_ne_self _)

theorem exists_widening_lost (hslash : slash ∉ segment) (hstar : star ∈ segment) :
    ∃ p r, slash ∉ p ∧ slash ∉ r ∧ segmentMatches (p ++ [] ++ r) segment = true ∧
      ¬ segmentMatches (p ++ [star] ++ r) segment = true := by
  obtain ⟨front, back, rfl⟩ := List.append_of_mem hstar
  rw [List.mem_append, List.mem_cons, not_or, not_or] at hslash
  obtain ⟨hfront, -, hback⟩ := hslash
  obtain ⟨hmatch, hlost⟩ := not_matched_behind_star front back
  refine ⟨front, wildcard :: mask back, hfront, ?_, ?_, ?_⟩
  · rw [List.mem_cons, not_or]
    refine ⟨by decide, fun hmem => hback ?_⟩
    obtain ⟨b, hb, heq⟩ := List.mem_map.mp hmem
    rwa [(maskByte_eq_slash b).mp heq] at hb
  · rwa [List.append_nil]
  · rwa [List.append_assoc, List.singleton_append]

/-- **Widening a pattern.** A star in the place of a part of a pattern loses no match of a segment,
for any pattern and any part of it, exactly if the segment has no star of its own. The star alone
matches every segment but those that begin with a star and go on behind it. -/
theorem widening_loses_nothing_iff (hslash : slash ∉ segment) :
    ((∀ p q r, slash ∉ p → slash ∉ q → slash ∉ r → segmentMatches (p ++ q ++ r) segment = true →
        segmentMatches (p ++ [star] ++ r) segment = true) ↔ star ∉ segment) ∧
      (segmentMatches [star] segment = true ↔ segment = [star] ∨ segment.head? ≠ some star) := by
  refine ⟨⟨fun hall hstar => ?_, fun hstar p q r _ _ _ hmatch => ?_⟩, segmentMatches_star_iff⟩
  · obtain ⟨p, r, hp, hr, hmatch, hlost⟩ := exists_widening_lost hslash hstar
    exact hlost (hall p [] r hp List.not_mem_nil hr hmatch)
  · have hcut := (cut_of_segmentMatches hmatch).widen
    rw [← List.singleton_append, ← List.append_assoc] at hcut
    exact segmentMatches_of_cut hstar hcut

/-- In `a.b` any part of a pattern can be a star; in `a*b` not. -/
theorem widening_loses_nothing_iff_dotted :
    let plain := Bytes.ofString "a.b"
    let starred := Bytes.ofString "a*b"
    slash ∉ plain ∧ slash ∉ starred ∧
      (∀ p q r, slash ∉ p → slash ∉ q → slash ∉ r → segmentMatches (p ++ q ++ r) plain = true →
        segmentMatches (p ++ [star] ++ r) plain = true) ∧
      ¬ ∀ p q r, slash ∉ p → slash ∉ q → slash ∉ r → segmentMatches (p ++ q ++ r) starred = true →
        segmentMatches (p ++ [star] ++ r) starred = true := by
  intro plain starred
  have hplain : slash ∉ plain := by decide
  have hstarred : slash ∉ starred := by decide
  exact ⟨hplain, hstarred, (widening_loses_nothing_iff hplain).1.mpr (by decide),
    fun hall => (widening_loses_nothing_iff hstarred).1.mp hall (by decide)⟩

/-- The pattern `*a` takes the star of `*a` for itself, and so does `*`, which then has nothing left
for the `a`. -/
theorem widened_pattern_loses_star :
    let segment := Bytes.ofString "*a"
    segmentMatches ([] ++ segment ++ []) segment = true ∧
      ¬ segmentMatches ([] ++ [star] ++ []) segment = true := by
  intro segment
  rw [List.nil_append, List.nil_append, List.append_nil, List.append_nil, segmentMatches_star_iff]
  exact ⟨matched_self segment, by decide⟩

end Gatehouse.Path
