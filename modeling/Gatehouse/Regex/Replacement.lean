import Gatehouse.Regex.Search

/-!
# Replacement

A replacement is text with references to groups: `$name`, `${name}` or a number, and `$$` for a
dollar sign. `Regex.replaceAll` puts it in the place of each match.
-/

namespace Gatehouse.Regex

/-- A part of a replacement. -/
inductive Part
  | literal (c : Char)
  | reference (name : List Char)
  deriving DecidableEq, Repr

/-- Whether a character may stand in a reference without braces. -/
def isNameLetter (c : Char) : Bool := c.isAlphanum || c == '_'

/-- The parts of a replacement. A dollar sign that begins no reference stands for itself. -/
def partsOf (text : List Char) : List Part :=
  match text with
  | [] => []
  | '$' :: '$' :: rest => .literal '$' :: partsOf rest
  | '$' :: '\x7b' :: rest =>
    if rest.contains '\x7d' then
      .reference (rest.takeWhile (· != '\x7d')) :: partsOf ((rest.dropWhile (· != '\x7d')).drop 1)
    else .literal '$' :: partsOf ('\x7b' :: rest)
  | '$' :: rest =>
    if (rest.takeWhile isNameLetter).isEmpty then .literal '$' :: partsOf rest
    else .reference (rest.takeWhile isNameLetter) :: partsOf (rest.dropWhile isNameLetter)
  | c :: rest => .literal c :: partsOf rest
termination_by text.length
decreasing_by
  all_goals simp only [List.length_cons, List.length_drop]
  all_goals try omega
  · have := (List.dropWhile_sublist (fun c : Char => c != '\x7d') (l := rest)).length_le
    omega
  · have := (List.dropWhile_sublist isNameLetter (l := rest)).length_le
    omega

/-- The number that a reference is, with an optional plus sign in front. -/
def referenceNumber? (name : List Char) : Option Nat :=
  let digits := match name with
    | '+' :: rest => rest
    | ds => ds
  if digits.isEmpty || !digits.all Char.isDigit then none
  else some (digits.foldl (fun n c => n * 10 + (c.toNat - 48)) 0)

/-- The text of a group in a match; a group that took no part has none. -/
def groupText (text : List Char) (slots : Slots) (index : Nat) : List Char :=
  match slots.lookup (2 * index), slots.lookup (2 * index + 1) with
  | some start, some stop => (text.drop start).take (stop - start)
  | _, _ => []

/-- What a part stands for in a match. -/
def Part.expand (re : Regex) (text : List Char) (slots : Slots) : Part → List Char
  | .literal c => [c]
  | .reference name =>
    match referenceNumber? name with
    | some n => groupText text slots n
    | none => match re.names.lookup (String.ofList name) with
      | some n => groupText text slots n
      | none => []

/-- Puts texts in the place of matches, beginning at a place of the text. -/
def splice (text : List Char) (place : Nat) : List (Slots × List Char) → List Char
  | [] => text.drop place
  | (slots, replaced) :: more =>
    let start := (slots.lookup 0).getD place
    let stop := (slots.lookup 1).getD place
    (text.drop place).take (start - place) ++ replaced ++ splice text stop more

/-- The text with a replacement in the place of each match. -/
def replaceAll (re : Regex) (text replacement : List Char) : List Char :=
  let parts := partsOf replacement
  splice text 0 <| (re.allMatches text).map fun slots =>
    (slots, parts.flatMap (Part.expand re text slots))

end Gatehouse.Regex
