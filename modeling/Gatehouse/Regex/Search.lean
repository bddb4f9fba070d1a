import Gatehouse.Regex.Expr

/-!
# Searching

A regular expression is searched for in a text from the left. Of the matches that begin earliest the
preferred one is found, with the places of its groups.
-/

namespace Gatehouse

/-- A regular expression ready to be searched for. -/
structure Regex where
  node : Regex.Node
  /-- The names of groups with their numbers. -/
  names : List (String × Nat) := []
  deriving DecidableEq, Repr, Inhabited

namespace Regex

open Unicode (CharSet)

/-- Places noted under the numbers of slots. Slots 0 and 1 are the ends of the match, and `2 * i`
and `2 * i + 1` those of group `i`. -/
abbrev Slots := List (Nat × Nat)

/-- Notes a place under a number. -/
def Slots.note (slots : Slots) (slot place : Nat) : Slots :=
  (slot, place) :: slots.filter fun (s, _) => s != slot

/-- Notes one place under some numbers. -/
def Slots.noteAll (slots : Slots) (numbers : List Nat) (place : Nat) : Slots :=
  numbers.foldl (fun slots slot => slots.note slot place) slots

/-- An attempt at a match: what is left to match and what has been noted. -/
structure Attempt where
  node : Node
  slots : Slots

/-- An attempt that waits for one character of a set. -/
structure Waiting where
  set : CharSet
  attempt : Attempt

/-- Lets attempts go on at a place, the preferred ones first, up to the first that is done. -/
def advance (here : Place) (place : Nat) : List (Step × Slots) → List Waiting × Option Slots
  | [] => ([], none)
  | (.accept numbers, slots) :: _ => ([], some ((slots.noteAll numbers place).note 1 place))
  | (.consume set rest numbers, slots) :: more =>
    let (waiting, done) := advance here place more
    (⟨set, rest, slots.noteAll numbers place⟩ :: waiting, done)

/-- Keeps of several attempts with the same node the preferred one. -/
def distinct : List Attempt → List Attempt
  | [] => []
  | a :: attempts => a :: (distinct attempts).filter fun b => b.node != a.node

/-- Searches from a place on, with the attempts under way and the match found so far. New attempts
begin until there is a match. -/
def searchFrom (node : Node) (before : Option Char) (place : Nat) (attempts : List Attempt)
    (found : Option Slots) : List Char → Option Slots
  | [] =>
    let here : Place := ⟨before, none⟩
    let attempts := if found.isNone then attempts ++ [⟨node, [(0, place)]⟩] else attempts
    let (_, done) := advance here place
      (attempts.flatMap fun a => (a.node.steps here).map (·, a.slots))
    done <|> found
  | c :: cs =>
    let here : Place := ⟨before, some c⟩
    let attempts := if found.isNone then attempts ++ [⟨node, [(0, place)]⟩] else attempts
    let (waiting, done) := advance here place
      (attempts.flatMap fun a => (a.node.steps here).map (·, a.slots))
    let found := done <|> found
    let next := distinct <| (waiting.filter fun w => w.set.contains c).map (·.attempt)
    if found.isSome && next.isEmpty then found
    else searchFrom node (some c) (place + 1) next found cs

/-- Whether a text contains a match. -/
def isMatch (re : Regex) (text : List Char) : Bool :=
  (searchFrom re.node none 0 [] none text).isSome

/-- The places that all matches note, from left to right without overlap. An empty match does not
begin where the match before it ends. `last` is where that is. -/
def matchesFrom (re : Regex) (last : Option Nat) (before : Option Char) (place : Nat)
    (text : List Char) : (fuel : Nat) → List Slots
  | 0 => []
  | fuel + 1 =>
    match searchFrom re.node before place [] none text with
    | none => []
    | some slots =>
      let start := (slots.lookup 0).getD place
      let stop := (slots.lookup 1).getD place
      if start = stop ∧ last = some stop then
        match text with
        | [] => []
        | c :: cs => matchesFrom re last (some c) (place + 1) cs fuel
      else
        let taken := text.take (stop - place)
        slots :: matchesFrom re (some stop) (taken.getLast? <|> before) stop
          (text.drop (stop - place)) fuel

/-- The places that all matches in a text note. -/
def allMatches (re : Regex) (text : List Char) : List Slots :=
  matchesFrom re none none 0 text (2 * text.length + 2)

end Regex

end Gatehouse
