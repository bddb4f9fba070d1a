import Gatehouse.Json.Document

/-!
# JSON values

A value is what a document means: numbers are evaluated and of two fields with one key the last one
counts. `Value.ofDocument?` refuses a number out of range, half a character, and nesting that is
too deep.
-/

namespace Gatehouse.Json

/-- A number as a value holds it. -/
inductive Number
  /-- An integer that fits a signed or an unsigned 64-bit word. -/
  | int (n : Int)
  | double (d : Double)
  deriving DecidableEq, Repr, Inhabited

/-- The significand and the decimal exponent that the digits of a number give: digits count until
one would make the significand pass 64 bits. -/
structure Parts where
  significand : Nat
  exponent : Int

/-- Takes in a digit of the whole part; after the first that does not fit, each one only moves the
point. -/
def Parts.addWhole : Parts → List Char → Parts
  | p, [] => p
  | p, c :: cs =>
    let next := p.significand * 10 + (c.toNat - 48)
    if p.exponent = 0 ∧ next < Nat.pow 2 64 then addWhole ⟨next, 0⟩ cs
    else addWhole ⟨p.significand, p.exponent + 1⟩ cs

/-- Takes in digits of the fraction up to the first that does not fit. -/
def Parts.addFraction : Parts → List Char → Parts
  | p, [] => p
  | p, c :: cs =>
    let next := p.significand * 10 + (c.toNat - 48)
    if next < Nat.pow 2 64 then addFraction ⟨next, p.exponent - 1⟩ cs else p

/-- The magnitude that parts stand for: the significand as a double, scaled by powers of ten that
are doubles; `none` where it is out of range. -/
def Parts.scale (x : Float) (exponent : Int) : (fuel : Nat) → Option Float
  | 0 => some x
  | fuel + 1 =>
    if exponent.natAbs ≤ 308 then
      let power := Float.ofScientific 1 false exponent.natAbs
      if 0 ≤ exponent then
        let y := x * power
        if y.isInf then none else some y
      else some (x / power)
    else if x == 0.0 then some x
    else if 0 ≤ exponent then none
    else scale (x / Float.ofScientific 1 false 308) (exponent + 308) fuel

/-- The natural number that decimal digits stand for. -/
def natOfDigits (digits : List Char) : Nat := digits.foldl (fun n c => n * 10 + (c.toNat - 48)) 0

/-- The double that a number with a sign and parts is. -/
def Parts.toDouble? (p : Parts) (negative : Bool) : Option Double :=
  (scale p.significand.toUInt64.toFloat p.exponent 5).map fun x =>
    Double.ofFloat (if negative then -x else x)

/-- The value of a number; one written with a point or an exponent, a negative zero, and an
integer beyond 64 bits are doubles. -/
def Numeral.toNumber? (n : Numeral) : Option Number :=
  let whole := natOfDigits n.whole
  let parts := ((Parts.mk 0 0).addWhole n.whole).addFraction n.fraction
  let double (p : Parts) := (p.toDouble? n.negative).map Number.double
  match n.fraction, n.exponent with
  | [], none =>
    if n.negative then
      if 0 < whole ∧ whole ≤ Nat.pow 2 63 then some (.int (-whole)) else double parts
    else if whole < Nat.pow 2 64 then some (.int whole)
    else double parts
  | _, none => double parts
  | _, some (down, digits) =>
    let exponent := natOfDigits digits
    if exponent < Nat.pow 2 31 then
      double { parts with exponent := if down then parts.exponent - exponent else parts.exponent + exponent }
    else if parts.significand = 0 ∨ down then double ⟨0, 0⟩
    else none

/-- A value of a JSON document. The fields of an object that was read are sorted by key and no key is
twice; those of one that is only written stand in the order in which they are to be written. -/
inductive Value
  | null
  | bool (b : Bool)
  | number (n : Number)
  | string (s : String)
  | array (items : List Value)
  | object (fields : List (String × Value))
  deriving Inhabited, Repr

/-- The fields of an object. -/
abbrev Fields := List (String × Value)

/-- Puts a field in its place by key; a field of the same key is replaced. -/
def Fields.insert (key : String) (value : Value) : Fields → Fields
  | [] => [(key, value)]
  | (k, v) :: rest =>
    if key < k then (key, value) :: (k, v) :: rest
    else if key = k then (key, value) :: rest
    else (k, v) :: Fields.insert key value rest

/-- The value under a key. -/
def Fields.get? (fields : Fields) (key : String) : Option Value := fields.lookup key

/-- How many arrays and objects may stand inside each other. -/
def maxDepth : Nat := 127

namespace Value

mutual

/-- The value of a document that nests at most `depth` deep. -/
def ofDocument? : (depth : Nat) → Document → Option Value
  | _, .null => some .null
  | _, .bool b => some (.bool b)
  | _, .number n => n.toNumber?.map .number
  | _, .string s => s.map .string
  | 0, .array _ => none
  | 0, .object _ => none
  | depth + 1, .array items => (ofItems? depth items).map .array
  | depth + 1, .object fields => (ofFields? depth [] fields).map .object

/-- The values of the items of an array. -/
def ofItems? : (depth : Nat) → List Document → Option (List Value)
  | _, [] => some []
  | depth, x :: xs => do
    let v ← ofDocument? depth x
    return v :: (← ofItems? depth xs)

/-- Adds the values of the fields of an object to the fields so far. -/
def ofFields? : (depth : Nat) → Fields → List (Option String × Document) → Option Fields
  | _, fields, [] => some fields
  | depth, fields, (key, x) :: rest => do
    let key ← key
    let v ← ofDocument? depth x
    ofFields? depth (Fields.insert key v fields) rest

end

/-- Reads a text as one value. -/
def read? (text : String) : Option Value := do
  ofDocument? maxDepth (← Document.ofText? text.toList)

/-- Whether a value is `null`. -/
def isNull : Value → Bool
  | .null => true
  | _ => false

/-- The text of a string value. -/
def string? : Value → Option String
  | .string s => some s
  | _ => none

/-- The items of an array value. -/
def array? : Value → Option (List Value)
  | .array items => some items
  | _ => none

/-- The fields of an object value. -/
def object? : Value → Option Fields
  | .object fields => some fields
  | _ => none

/-- The truth value of a Boolean. -/
def bool? : Value → Option Bool
  | .bool b => some b
  | _ => none

/-- The integer of a number that is kept as one. -/
def int? : Value → Option Int
  | .number (.int n) => some n
  | _ => none

/-- The natural number of a number that is kept as an integer. -/
def nat? (v : Value) : Option Nat := v.int?.bind fun n => n.toNat?

/-- The field of an object value under a key. -/
def field? (v : Value) (key : String) : Option Value := v.object?.bind (Fields.get? · key)

/-- A value of a natural number. -/
def ofNat (n : Nat) : Value := .number (.int n)

end Value

end Gatehouse.Json
