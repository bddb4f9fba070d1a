import Gatehouse.Error

/-!
# References to the environment

A configuration text may refer to a variable of the environment by its name in braces behind a
dollar sign, with a default behind `:-`. `expand` replaces the references in one pass from left to
right; what is put in their place is not looked at again.
-/

namespace Gatehouse.Config

/-- The values of the variables of an environment. One that is set to no text counts as not set. -/
abbrev Environment := String → Option String

/-- A reference to a variable. -/
structure Reference where
  name : List Char
  default : Option (List Char) := none
  deriving DecidableEq, Repr, Inhabited

namespace Reference

/-- Whether a character may begin a name. -/
def startsName (c : Char) : Bool := c.isAlpha || c == '_'

/-- Whether a character may stand in a name. -/
def inName (c : Char) : Bool := startsName c || c.isDigit

/-- How many characters a reference takes in a text. -/
def size (r : Reference) : Nat :=
  match r.default with
  | none => r.name.length + 3
  | some d => r.name.length + d.length + 5

/-- The reference that a text begins with. -/
def ofText? : List Char → Option Reference
  | '$' :: '\x7b' :: cs =>
    if !cs.head?.any startsName then none
    else
      let name := cs.takeWhile inName
      match cs.dropWhile inName with
      | '\x7d' :: _ => some { name }
      | ':' :: '-' :: rest =>
        if rest.contains '\x7d' then some { name, default := some (rest.takeWhile (· != '\x7d')) }
        else none
      | _ => none
  | _ => none

/-- What is put in the place of a reference: the variable's value, or else the default. -/
def value (env : Environment) (r : Reference) : Except ConfigError (List Char) :=
  match env (String.ofList r.name), r.default with
  | some v, _ => .ok v.toList
  | none, some d => .ok d
  | none, none => .error (.unsetVariable (String.ofList r.name))

end Reference

/-- Expands a text behind the characters of a reference that are still to be skipped. -/
def expandFrom (env : Environment) : (skip : Nat) → List Char → Except ConfigError (List Char)
  | _, [] => .ok []
  | skip + 1, _ :: cs => expandFrom env skip cs
  | 0, c :: cs =>
    match Reference.ofText? (c :: cs) with
    | none => (expandFrom env 0 cs).map (c :: ·)
    | some r => do
      let v ← r.value env
      return v ++ (← expandFrom env (r.size - 1) cs)

/-- A text with its references replaced, or the first variable that is not set. -/
def expand (env : Environment) (text : String) : Except ConfigError String :=
  (expandFrom env 0 text.toList).map String.ofList

/-- The names of the variables that a text refers to. -/
def referredNames : List Char → List String
  | [] => []
  | c :: cs =>
    ((Reference.ofText? (c :: cs)).map fun r => String.ofList r.name).toList ++ referredNames cs

end Gatehouse.Config
