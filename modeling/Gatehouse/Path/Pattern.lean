import Gatehouse.Bytes

/-!
# Path patterns

A path pattern is a list of segments between slashes. In a segment `*` stands for any run of bytes
and `?` for one byte; a whole segment `**` stands for any number of segments. `matchSegments` and
`segmentMatches` decide both without search, each going back to the last star only.
-/

namespace Gatehouse.Path

/-- The byte that separates segments. -/
def slash : UInt8 := 0x2F

/-- The byte that stands for any run of bytes. -/
def star : UInt8 := 0x2A

/-- The byte that stands for any one byte. -/
def wildcard : UInt8 := 0x3F

/-- The segments of a path, without the slashes at both ends. -/
def segments (path : Bytes) : List Bytes :=
  match Bytes.trimBy (· == slash) path with
  | [] => []
  | trimmed => Bytes.splitOn slash trimmed

/-- Where to go on after a mismatch: the pattern behind the last star, and the segment from where
that star started to skip. -/
structure Retry where
  pattern : Bytes
  segment : Bytes

/-- How much of the segment can still be tried, for termination. -/
def Retry.bound (retry : Option Retry) (segment : Bytes) : Nat :=
  match retry with
  | none => segment.length + 1
  | some r => max r.segment.length segment.length

/-- Pairs decrease when the first component does not grow and the second decreases. -/
theorem lex_of_le {a b c d : Nat} (h : a ≤ b) (h' : c < d) :
    Prod.Lex (· < ·) (· < ·) (a, c) (b, d) := by
  rcases Nat.lt_or_eq_of_le h with h | rfl
  · exact .left _ _ h
  · exact .right _ h'

/-- Matches the rest of a pattern against the rest of a segment. A byte of the pattern first stands
for itself, also when it is a star. -/
def matchFrom (retry : Option Retry) (pattern segment : Bytes) : Bool :=
  match segment, pattern with
  | [], ps => ps.all (· == star)
  | s :: ss, p :: ps =>
    if p = wildcard ∨ p = s then matchFrom retry ps ss
    else if p = star then matchFrom (some ⟨ps, s :: ss⟩) ps (s :: ss)
    else match retry with
      | some ⟨resume, _ :: ms⟩ => matchFrom (some ⟨resume, ms⟩) resume ms
      | _ => false
  | _ :: _, [] =>
    match retry with
    | some ⟨resume, _ :: ms⟩ => matchFrom (some ⟨resume, ms⟩) resume ms
    | _ => false
termination_by (Retry.bound retry segment, pattern.length)
decreasing_by
  · cases retry with
    | none => exact Prod.Lex.left _ _ (by simp [Retry.bound])
    | some r => exact lex_of_le (by simp only [Retry.bound, List.length_cons]; omega) (by simp)
  · cases retry with
    | none => exact Prod.Lex.left _ _ (by simp [Retry.bound])
    | some r => exact lex_of_le (by simp only [Retry.bound, List.length_cons]; omega) (by simp)
  · exact Prod.Lex.left _ _ (by simp only [Retry.bound, List.length_cons]; omega)
  · exact Prod.Lex.left _ _ (by simp only [Retry.bound, List.length_cons]; omega)

/-- Whether a segment of a path matches a segment of a pattern other than `**`. -/
def segmentMatches (pattern segment : Bytes) : Bool := matchFrom none pattern segment

/-- The pattern segment that stands for any number of segments. -/
def anySegments : Bytes := [star, star]

/-- Whether the segments of a path match those of a pattern. After `**` the next pattern segment
takes the first path segment that it matches. -/
def matchSegments : (pattern path : List Bytes) → Bool
  | [], path => path.isEmpty
  | [p], path =>
    p = anySegments || match path with
      | [s] => segmentMatches p s
      | _ => false
  | p :: next :: rest, path =>
    if p = anySegments then
      match path.dropWhile fun s => !segmentMatches next s with
      | [] => false
      | _ :: left => matchSegments rest left
    else match path with
      | [] => false
      | s :: left => segmentMatches p s && matchSegments (next :: rest) left

/-- A path pattern with its segments. -/
structure Pattern where
  text : Bytes
  segments : List Bytes
  deriving DecidableEq, Repr

/-- The pattern of a text. -/
def Pattern.ofText (text : Bytes) : Pattern := ⟨text, Path.segments text⟩

/-- Whether a path matches; the empty pattern matches the empty path only. -/
def Pattern.accepts (p : Pattern) (path : Bytes) : Bool :=
  if p.text.isEmpty then path.isEmpty else matchSegments p.segments (Path.segments path)

/-- Whether a path matches the text of a pattern. -/
def accepts (pattern path : Bytes) : Bool :=
  if pattern.isEmpty then path.isEmpty else matchSegments (segments pattern) (segments path)

end Gatehouse.Path
