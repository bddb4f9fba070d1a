import Gatehouse.Proofs.Path.Cut

/-!
# What matching loses at `**`

Behind `**` the next segment of a pattern takes the first segment of the path that it matches, and
matching never comes back to choose a later one. `Resumes` are the patterns in which that does no
harm: every `**` is last, or one segment and then `**` again follow it, and this next `**` takes up
whatever the first choice leaves over. In any other pattern something is lost
(`exists_lost_of_not_resumes`).
-/

namespace Gatehouse.Path

variable {patterns paths rest : List Bytes} {p next : Bytes}

/-- Every `**` is the last segment, or has one segment and then `**` behind it. -/
def Resumes : List Bytes → Bool
  | [] => true
  | [_] => true
  | p :: next :: rest =>
    if p = anySegments then
      decide (next ≠ anySegments) && decide (rest.head? = some anySegments) && Resumes rest
    else Resumes (next :: rest)

theorem resumes_any_iff : Resumes (anySegments :: next :: rest) = true ↔
    next ≠ anySegments ∧ rest.head? = some anySegments ∧ Resumes rest = true := by
  rw [Resumes, if_pos rfl, Bool.and_eq_true, Bool.and_eq_true, decide_eq_true_eq,
    decide_eq_true_eq, and_assoc]

theorem resumes_cons (h : p ≠ anySegments) :
    Resumes (p :: next :: rest) = Resumes (next :: rest) := by
  rw [Resumes, if_neg h]

/-! ## What a segment matches -/

/-- As long as pattern and segment are the same, no star comes into play. -/
theorem matchFrom_append (common ps ss : Bytes) :
    matchFrom none (common ++ ps) (common ++ ss) = matchFrom none ps ss := by
  induction common with
  | nil => rfl
  | cons b common ih =>
    rw [List.cons_append, List.cons_append, matchFrom, if_pos (.inr rfl)]
    · exact ih
    · rintro _ _ _ ⟨⟩

theorem matched_self (p : Bytes) : Matched p p := by
  have h := matchFrom_append p [] []
  rw [List.append_nil] at h
  rw [Matched, segmentMatches, h, matchFrom]
  rfl

/-- No segment of a pattern matches every segment: none matches itself with a byte more. -/
theorem not_matched_append (p : Bytes) (b : UInt8) : ¬ Matched p (p ++ [b]) := by
  have h := matchFrom_append p [] [b]
  rw [List.append_nil] at h
  rw [Matched, segmentMatches, h, matchFrom]
  · decide
  · rintro _ _ _ ⟨⟩

/-! ## The shortest path -/

/-- The segments of a pattern other than `**`. -/
def plain (patterns : List Bytes) : List Bytes := patterns.filter (· ≠ anySegments)

theorem plain_any (rest : List Bytes) : plain (anySegments :: rest) = plain rest :=
  List.filter_cons_of_neg (by simp)

theorem plain_cons (h : p ≠ anySegments) (rest : List Bytes) : plain (p :: rest) = p :: plain rest :=
  List.filter_cons_of_pos (by simpa using h)

/-- Each segment other than `**` takes itself, and `**` nothing. -/
theorem cut_plain (patterns : List Bytes) : Cut anySegments Matched patterns (plain patterns) := by
  induction patterns with
  | nil => exact cut_nil_iff.mpr rfl
  | cons p rest ih =>
    by_cases hp : p = anySegments
    · subst hp
      rw [plain_any]
      exact cut_any_iff.mpr ⟨_, List.suffix_rfl, ih⟩
    · rw [plain_cons hp]
      exact ih.cons (matched_self p)

theorem Cut.length_plain_le (h : Cut anySegments Matched patterns paths) :
    (plain patterns).length ≤ paths.length := by
  induction patterns generalizing paths with
  | nil => exact Nat.zero_le _
  | cons p rest ih =>
    by_cases hp : p = anySegments
    · subst hp
      obtain ⟨left, hleft, hcut⟩ := cut_any_iff.mp h
      rw [plain_any]
      exact (ih hcut).trans hleft.length_le
    · obtain ⟨s, left, rfl, -, hcut⟩ := (cut_cons_iff hp).mp h
      rw [plain_cons hp, List.length_cons, List.length_cons]
      exact Nat.succ_le_succ (ih hcut)

/-! ## Patterns that lose nothing -/

/-- Of all segments that match, the first leaves the most behind it. -/
theorem exists_first (before : List Bytes) {s : Bytes} {left : List Bytes} (hs : Matched next s) :
    ∃ before' s' left', before ++ s :: left = before' ++ s' :: left' ∧
      (∀ b ∈ before', ¬ Matched next b) ∧ Matched next s' ∧ left <:+ left' := by
  induction before with
  | nil => exact ⟨[], s, left, rfl, nofun, hs, List.suffix_rfl⟩
  | cons b before ih =>
    by_cases hb : Matched next b
    · exact ⟨[], b, before ++ s :: left, rfl, nofun, hb, before ++ [s], by simp⟩
    · obtain ⟨before', s', left', heq, hbefore', hs', hleft⟩ := ih
      refine ⟨b :: before', s', left', ?_, List.forall_mem_cons.mpr ⟨hb, hbefore'⟩, hs', hleft⟩
      rw [List.cons_append, heq, List.cons_append]

theorem matchSegments_of_cut : ∀ {patterns paths : List Bytes}, Resumes patterns = true →
    Cut anySegments Matched patterns paths → matchSegments patterns paths = true
  | [], _, _, h => by rw [cut_nil_iff.mp h]; rfl
  | [_], _, _, h => matchSegments_last_iff.mpr (cut_singleton_iff.mp h)
  | p :: next :: rest, paths, hresumes, h => by
    by_cases hp : p = anySegments
    · subst hp
      obtain ⟨hnext, hhead, hrest⟩ := resumes_any_iff.mp hresumes
      obtain ⟨_, ⟨before, rfl⟩, hcut⟩ := cut_any_iff.mp h
      obtain ⟨s, left, rfl, hs, hcut⟩ := (cut_cons_iff hnext).mp hcut
      obtain ⟨before', s', left', heq, hbefore', hs', hleft⟩ := exists_first before hs
      -- what the first choice leaves begins earlier, which the next `**` makes up for
      obtain ⟨later, rfl⟩ := List.head?_eq_some_iff.mp hhead
      exact matchSegments_any_iff.mpr ⟨before', s', left', heq, hbefore', hs',
        matchSegments_of_cut hrest (hcut.of_suffix hleft)⟩
    · obtain ⟨s, left, rfl, hs, hcut⟩ := (cut_cons_iff hp).mp h
      rw [resumes_cons hp] at hresumes
      exact (matchSegments_cons_iff hp).mpr ⟨s, left, rfl, hs, matchSegments_of_cut hresumes hcut⟩

/-! ## Patterns that lose a path -/

/-- A path can be cut along a pattern and is not accepted. -/
structure Lost (patterns paths : List Bytes) : Prop where
  cut : Cut anySegments Matched patterns paths
  refused : ¬ matchSegments patterns paths = true

/-- Behind `**` the first segment is taken if it matches. -/
theorem matchSegments_any_first (hs : Matched next p) :
    matchSegments (anySegments :: next :: rest) (p :: paths) = true ↔
      matchSegments rest paths = true := by
  rw [matchSegments_any_iff]
  constructor
  · rintro ⟨before, s, left, heq, hbefore, -, hrest⟩
    cases before with
    | nil =>
      obtain ⟨-, rfl⟩ := List.cons.inj heq
      exact hrest
    | cons b before =>
      obtain ⟨rfl, -⟩ := List.cons.inj heq
      exact absurd hs (hbefore _ List.mem_cons_self)
  · intro hrest
    exact ⟨[], p, paths, rfl, nofun, hs, hrest⟩

/-- A segment in front changes nothing, and takes itself. -/
theorem Lost.cons (hp : p ≠ anySegments) (h : Lost (next :: rest) paths) :
    Lost (p :: next :: rest) (p :: paths) where
  cut := h.cut.cons (matched_self p)
  refused hmatch := by
    obtain ⟨_, _, heq, -, hrest⟩ := (matchSegments_cons_iff hp).mp hmatch
    obtain ⟨-, rfl⟩ := List.cons.inj heq
    exact h.refused hrest

/-- Neither does `**` with a segment behind it, which takes itself at once. -/
theorem Lost.any (next : Bytes) (h : Lost rest paths) :
    Lost (anySegments :: next :: rest) (next :: paths) where
  cut := cut_any_iff.mpr ⟨_, List.suffix_rfl, h.cut.cons (matched_self next)⟩
  refused hmatch := h.refused ((matchSegments_any_first (matched_self next)).mp hmatch)

/-- Of two `**` in a row the second one takes a segment. -/
theorem lost_of_any_any (rest : List Bytes) :
    Lost (anySegments :: anySegments :: rest) (plain rest) where
  cut := by
    have hcut := cut_plain (anySegments :: anySegments :: rest)
    rwa [plain_any, plain_any] at hcut
  refused hmatch := by
    obtain ⟨before, s, left, heq, -, -, hrest⟩ := matchSegments_any_iff.mp hmatch
    have hlength := congrArg List.length heq
    have hle := (cut_of_matchSegments hrest).length_plain_le
    rw [List.length_append, List.length_cons] at hlength
    omega

/-- A segment that cannot stand where a pattern begins, unless `**` stands there. -/
theorem exists_refused (hhead : rest.head? ≠ some anySegments) :
    ∃ x, ∀ paths, ¬ matchSegments rest (x :: paths) = true := by
  cases rest with
  | nil => exact ⟨[], fun _ h => List.cons_ne_nil _ _ (cut_nil_iff.mp (cut_of_matchSegments h))⟩
  | cons c rest =>
    have hc : c ≠ anySegments := fun heq => hhead (congrArg some heq)
    refine ⟨c ++ [0], fun paths h => ?_⟩
    obtain ⟨_, _, heq, hmatched, -⟩ := (cut_cons_iff hc).mp (cut_of_matchSegments h)
    obtain ⟨rfl, -⟩ := List.cons.inj heq
    exact not_matched_append c 0 hmatched

/-- Where no `**` follows, the segment behind `**` is taken when it first comes, and would be needed
when it comes again. -/
theorem exists_lost_of_head (next : Bytes) (hhead : rest.head? ≠ some anySegments) :
    ∃ paths, Lost (anySegments :: next :: rest) paths := by
  obtain ⟨x, hx⟩ := exists_refused hhead
  have hcut : Cut anySegments Matched (next :: rest) (next :: plain rest) :=
    (cut_plain rest).cons (matched_self next)
  refine ⟨next :: x :: next :: plain rest, ?_, fun hmatch => ?_⟩
  · exact cut_any_iff.mpr ⟨_, ⟨[next, x], rfl⟩, hcut⟩
  · exact hx _ ((matchSegments_any_first (matched_self next)).mp hmatch)

theorem exists_lost_of_not_resumes : ∀ {patterns : List Bytes}, ¬ Resumes patterns = true →
    ∃ paths, Lost patterns paths
  | [], h => absurd rfl h
  | [_], h => absurd rfl h
  | p :: next :: rest, h => by
    by_cases hp : p = anySegments
    · subst hp
      by_cases hnext : next = anySegments
      · subst hnext
        exact ⟨_, lost_of_any_any rest⟩
      by_cases hhead : rest.head? = some anySegments
      · have hrest : ¬ Resumes rest = true := by
          intro hrest
          exact h (resumes_any_iff.mpr ⟨hnext, hhead, hrest⟩)
        obtain ⟨paths, hlost⟩ := exists_lost_of_not_resumes hrest
        exact ⟨next :: paths, hlost.any next⟩
      · exact exists_lost_of_head next hhead
    · rw [resumes_cons hp] at h
      obtain ⟨paths, hlost⟩ := exists_lost_of_not_resumes h
      exact ⟨p :: paths, hlost.cons hp⟩

/-- **Which patterns lose a path.** Whatever a pattern accepts can be cut along it. The other way
around, every path that can be cut along a pattern is accepted exactly if each `**` in it is its last
segment, or is followed by one segment and then by `**` again. -/
theorem loses_nothing_iff_resumes (patterns : List Bytes) :
    (∀ paths, matchSegments patterns paths = true → Cut anySegments Matched patterns paths) ∧
      ((∀ paths, Cut anySegments Matched patterns paths → matchSegments patterns paths = true) ↔
        Resumes patterns = true) := by
  refine ⟨fun paths h => cut_of_matchSegments h, fun hall => ?_, fun hresumes paths h =>
    matchSegments_of_cut hresumes h⟩
  by_contra hnot
  obtain ⟨paths, hlost⟩ := exists_lost_of_not_resumes hnot
  exact hlost.refused (hall paths hlost.cut)

/-- The second `edit` would be the right one; and two `**` can both take nothing. -/
theorem loses_second_edit :
    let api := Bytes.ofString "api"
    let edit := Bytes.ofString "edit"
    let path := [api, edit, Bytes.ofString "7", edit]
    (Cut anySegments Matched [api, anySegments, edit] path ∧
      ¬ matchSegments [api, anySegments, edit] path = true) ∧
    Cut anySegments Matched [api, anySegments, anySegments] [api] ∧
      ¬ matchSegments [api, anySegments, anySegments] [api] = true := by
  intro api edit path
  have hapi : api ≠ anySegments := by decide
  have hcut : Cut anySegments Matched [edit] [edit] := cut_plain [edit]
  have hlater : Lost [anySegments, edit] [edit, Bytes.ofString "7", edit] :=
    ⟨cut_any_iff.mpr ⟨[edit], ⟨[edit, Bytes.ofString "7"], rfl⟩, hcut⟩,
      fun hmatch => nomatch (matchSegments_any_first (matched_self edit)).mp hmatch⟩
  have hfirst := hlater.cons hapi
  have hsecond := (lost_of_any_any []).cons hapi
  exact ⟨⟨hfirst.cut, hfirst.refused⟩, hsecond.cut, hsecond.refused⟩

end Gatehouse.Path
