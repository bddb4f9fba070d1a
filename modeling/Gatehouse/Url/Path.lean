import Gatehouse.Url.Percent

/-!
# Paths of URLs

A path is segments behind slashes. `resolve` reads one: a segment `.` goes away and `..` takes the
one before it along, also where their dots are written as escapes.
-/

namespace Gatehouse.Url

/-- Whether a byte separates segments; in a URL of a special scheme a backslash does too. -/
def isSeparator (special : Bool) (b : UInt8) : Bool := b == 0x2F || (special && b == 0x5C)

/-- Whether a segment stands for the directory it is in. -/
def isDot (segment : Bytes) : Bool :=
  let s := segment.map Bytes.toLower
  s = Bytes.ofString "." || s = Bytes.ofString "%2e"

/-- Whether a segment stands for the directory above. -/
def isDoubleDot (segment : Bytes) : Bool :=
  let s := segment.map Bytes.toLower
  s = Bytes.ofString ".." || s = Bytes.ofString ".%2e" || s = Bytes.ofString "%2e." ||
  s = Bytes.ofString "%2e%2e"

/-- Whether a segment names a drive; such a segment is never taken back. -/
def isDrive : Bytes → Bool
  | [letter, mark] => Bytes.isAlpha letter && (mark == 0x3A || mark == 0x7C)
  | _ => false

/-- Takes back the last segment, the first in the list. -/
def pop : List Bytes → List Bytes
  | [] => []
  | segment :: above => if isDrive segment then segment :: above else above

/-- Resolves segments against the directory they are in, given from the last segment up. -/
def resolveSegments (above : List Bytes) : List Bytes → List Bytes
  | [] => above.reverse
  | [last] =>
    if isDoubleDot last then (([] : Bytes) :: pop above).reverse
    else if isDot last then (([] : Bytes) :: above).reverse
    else (last :: above).reverse
  | segment :: rest =>
    if isDoubleDot segment then resolveSegments (pop above) rest
    else if isDot segment then resolveSegments above rest
    else resolveSegments (segment :: above) rest

/-- The pieces between separators; there is always at least one. -/
def segments (special : Bool) (text : Bytes) : List Bytes :=
  Bytes.splitOn 0x2F (text.map fun b => if isSeparator special b then 0x2F else b)

/-- The path that a text stands for; a slash in front of it may be missing. -/
def resolve (special : Bool) (text : Bytes) : Bytes :=
  let text := match text with
    | [] => []
    | b :: rest => if isSeparator special b then rest else b :: rest
  (resolveSegments [] (segments special text)).flatMap fun segment => 0x2F :: encode pathSet segment

/-- The path of a drive with a colon behind its letter, where the first segment names a drive. -/
def drivePath? : Bytes → Option Bytes
  | 0x2F :: letter :: mark :: rest =>
    if isDrive [letter, mark] && (rest.isEmpty || rest.head? == some 0x2F) then
      some (0x2F :: letter :: 0x3A :: rest)
    else none
  | _ => none

end Gatehouse.Url
