import Gatehouse.Json.Token

/-!
# JSON documents

A document is the tree that the tokens of a JSON text spell, with fields in the order written and
nothing rejected but bad grammar. `Json.Value` is what a reader makes of it.
-/

namespace Gatehouse.Json

/-- The tree of a JSON text, as written. -/
inductive Document
  | null
  | bool (b : Bool)
  | number (n : Numeral)
  /-- A string, or `none` where an escape names half a character. -/
  | string (s : Option String)
  | array (items : List Document)
  | object (fields : List (Option String × Document))
  deriving Inhabited

namespace Document

mutual

/-- Reads one value; `fuel` bounds the number of tokens. -/
def value : (fuel : Nat) → List Token → Option (Document × List Token)
  | _, .null :: rest => some (.null, rest)
  | _, .bool b :: rest => some (.bool b, rest)
  | _, .number n :: rest => some (.number n, rest)
  | _, .string s :: rest => some (.string s, rest)
  | _, .mark '[' :: .mark ']' :: rest => some (.array [], rest)
  | _, .mark '\x7b' :: .mark '\x7d' :: rest => some (.object [], rest)
  | fuel + 1, .mark '[' :: rest => (items fuel rest).map fun (xs, left) => (.array xs, left)
  | fuel + 1, .mark '\x7b' :: rest => (fields fuel rest).map fun (xs, left) => (.object xs, left)
  | _, _ => none

/-- Reads the items of an array, one at least, to behind its bracket. -/
def items : (fuel : Nat) → List Token → Option (List Document × List Token)
  | 0, _ => none
  | fuel + 1, tokens =>
    match value fuel tokens with
    | some (x, .mark ',' :: rest) => (items fuel rest).map fun (xs, left) => (x :: xs, left)
    | some (x, .mark ']' :: rest) => some ([x], rest)
    | _ => none

/-- Reads the fields of an object, one at least, to behind its brace. -/
def fields : (fuel : Nat) → List Token → Option (List (Option String × Document) × List Token)
  | 0, _ => none
  | fuel + 1, .string key :: .mark ':' :: rest =>
    match value fuel rest with
    | some (x, .mark ',' :: rest) =>
      (fields fuel rest).map fun (xs, left) => ((key, x) :: xs, left)
    | some (x, .mark '\x7d' :: rest) => some ([(key, x)], rest)
    | _ => none
  | _, _ => none

end

/-- The document that a text spells. -/
def ofText? (text : List Char) : Option Document := do
  let tokens ← tokens? text
  match value (2 * tokens.length + 1) tokens with
  | some (document, []) => some document
  | _ => none

end Document

end Gatehouse.Json
