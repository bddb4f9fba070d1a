import Gatehouse.Json.Value
import Gatehouse.Double.Shortest

/-!
# Writing JSON

`Value.write` spells a value compactly, so that `Value.read?` of the text gives the value back.
-/

namespace Gatehouse.Json

/-- A double has a point from 10^-5 up to below 10^16 and an exponent elsewhere. -/
def doubleFormat : Double.DecimalFormat := ⟨-4, 16⟩

/-- How a character stands in a string. -/
def escape (c : Char) : List Char :=
  if c == '"' then ['\\', '"']
  else if c == '\\' then ['\\', '\\']
  else if c == '\n' then ['\\', 'n']
  else if c == '\r' then ['\\', 'r']
  else if c == '\t' then ['\\', 't']
  else if c == '\x08' then ['\\', 'b']
  else if c == '\x0C' then ['\\', 'f']
  else if c.toNat < 0x20 then
    ['\\', 'u', '0', '0', Nat.digitChar (c.toNat / 16), Nat.digitChar (c.toNat % 16)]
  else [c]

/-- A string in quotes. -/
def quote (s : String) : List Char := '"' :: (s.toList.flatMap escape ++ ['"'])

/-- The text of a number. -/
def Number.write : Number → List Char
  | .int n => (toString n).toList
  | .double d => if d.isFinite then (d.render doubleFormat).toList else ['n', 'u', 'l', 'l']

/-- Puts commas between texts. -/
def joinCommas : List (List Char) → List Char
  | [] => []
  | [x] => x
  | x :: rest => x ++ ',' :: joinCommas rest

mutual

/-- The characters of a value. -/
def Value.chars : Value → List Char
  | .null => ['n', 'u', 'l', 'l']
  | .bool true => ['t', 'r', 'u', 'e']
  | .bool false => ['f', 'a', 'l', 's', 'e']
  | .number n => n.write
  | .string s => quote s
  | .array items => '[' :: (joinCommas (itemChars items) ++ [']'])
  | .object fields => '\x7b' :: (joinCommas (fieldChars fields) ++ ['\x7d'])

/-- The characters of each item of an array. -/
def itemChars : List Value → List (List Char)
  | [] => []
  | v :: vs => v.chars :: itemChars vs

/-- The characters of each field of an object. -/
def fieldChars : Fields → List (List Char)
  | [] => []
  | (k, v) :: rest => (quote k ++ ':' :: v.chars) :: fieldChars rest

end

/-- The compact text of a value. -/
def Value.write (v : Value) : String := String.ofList v.chars

end Gatehouse.Json
