/-!
# Sets of characters

A set of code points is a list of ranges in increasing order that do not touch. The operations keep
that form, and `CharSet.has` is the view of a set.
-/

namespace Gatehouse.Unicode

/-- A set of code points: the first and the last of each range, in increasing order. -/
structure CharSet where
  ranges : List (Nat × Nat) := []
  deriving DecidableEq, Repr, Inhabited

namespace CharSet

/-- Whether a code point is in the set. -/
def has (s : CharSet) (n : Nat) : Bool := s.ranges.any fun (first, last) => first ≤ n && n ≤ last

/-- Whether a character is in the set. -/
def contains (s : CharSet) (c : Char) : Bool := s.has c.toNat

/-- Joins a range with the ranges behind it, none of which begins earlier. -/
def join (first last : Nat) : List (Nat × Nat) → List (Nat × Nat)
  | [] => [(first, last)]
  | (f, l) :: rest =>
    if f ≤ last + 1 then join first (max last l) rest else (first, last) :: join f l rest

/-- The set of all code points in some ranges. -/
def ofList (ranges : List (Nat × Nat)) : CharSet :=
  match (ranges.filter fun (first, last) => first ≤ last).mergeSort (fun a b => a.1 ≤ b.1) with
  | [] => ⟨[]⟩
  | (first, last) :: rest => ⟨join first last rest⟩

/-- The set of one character. -/
def single (c : Char) : CharSet := ⟨[(c.toNat, c.toNat)]⟩

/-- The code points of either set. -/
def union (s t : CharSet) : CharSet := ofList (s.ranges ++ t.ranges)

/-- The ranges between those given, from `start` up to the last code point. -/
def gaps (start : Nat) : List (Nat × Nat) → List (Nat × Nat)
  | [] => if start ≤ 0x10FFFF then [(start, 0x10FFFF)] else []
  | (first, last) :: rest =>
    if start < first then (start, first - 1) :: gaps (last + 1) rest else gaps (last + 1) rest

/-- The code points that are not in the set. -/
def complement (s : CharSet) : CharSet := ⟨gaps 0 s.ranges⟩

/-- The code points of both sets. -/
def inter (s t : CharSet) : CharSet := (s.complement.union t.complement).complement

/-- The code points of the first set that are not in the second. -/
def diff (s t : CharSet) : CharSet := s.inter t.complement

/-- The code points of exactly one of the sets. -/
def symmetricDiff (s t : CharSet) : CharSet := (s.diff t).union (t.diff s)

/-- The set of all code points. -/
def all : CharSet := ⟨[(0, 0x10FFFF)]⟩

end CharSet

end Gatehouse.Unicode
