import Gatehouse.Config.Node

/-!
# Plain scalars of YAML

`Yaml.resolve` decides what a scalar without quotes is: nothing, a truth value, an integer in one of
four bases, a double, or else a text.
-/

namespace Gatehouse.Yaml

open Config (Scalar)

/-- The value of a digit in a base. -/
def digit? (base : Nat) (c : Char) : Option Nat :=
  let n := c.toNat
  let value :=
    if 48 ≤ n ∧ n ≤ 57 then n - 48
    else if 97 ≤ n ∧ n ≤ 122 then n - 87
    else if 65 ≤ n ∧ n ≤ 90 then n - 55
    else base
  if value < base then some value else none

/-- The number that digits stand for, of which there is at least one. -/
def nat? (base : Nat) : List Char → Option Nat
  | [] => none
  | cs => cs.foldlM (fun n c => (digit? base c).map (n * base + ·)) 0

/-- Whether a text is made of digits behind a superfluous zero, so that it is no number. -/
def isZeroPadded (cs : List Char) : Bool :=
  let digits := match cs with
    | '-' :: rest => rest
    | '+' :: rest => rest
    | cs => cs
  match digits with
  | '0' :: rest => !rest.isEmpty && rest.all Char.isDigit
  | _ => false

/-- The magnitude of an integer: in base 16, 8 or 2 behind a mark, or else in base 10. -/
def magnitude? (unsigned whole : List Char) : Option Nat :=
  match unsigned with
  | '0' :: 'x' :: rest => nat? 16 rest
  | '0' :: 'o' :: rest => nat? 8 rest
  | '0' :: 'b' :: rest => nat? 2 rest
  | cs => if isZeroPadded whole then none else nat? 10 cs

/-- The integer that a text is, of at most 128 bits. -/
def int? (cs : List Char) : Option Int :=
  match cs with
  | '-' :: rest => ((magnitude? rest cs).filter (· ≤ Nat.pow 2 127)).map fun n => -(n : Int)
  | '+' :: rest => ((magnitude? rest cs).filter (· < Nat.pow 2 128)).map Int.ofNat
  | _ => ((magnitude? cs cs).filter (· < Nat.pow 2 128)).map Int.ofNat

/-- The sign and the digits of an exponent. -/
def exponent? : List Char → Option Int
  | '-' :: cs => (nat? 10 cs).map fun n => -(n : Int)
  | '+' :: cs => (nat? 10 cs).map Int.ofNat
  | cs => (nat? 10 cs).map Int.ofNat

/-- The double of decimal digits with a point before the last `places` of them, times a power of
ten. -/
def scaled (negative : Bool) (digits : Nat) (places : Nat) (exponent : Int) : Double :=
  let e := exponent - places
  let x := Float.ofScientific digits (decide (e < 0)) e.natAbs
  .ofFloat (if negative then -x else x)

/-- The double that a decimal number is: digits, perhaps a point and more digits, perhaps an
exponent. -/
def decimal? (negative : Bool) (cs : List Char) : Option Double := do
  let whole := cs.takeWhile Char.isDigit
  let rest := cs.drop whole.length
  let (fraction, rest) := match rest with
    | '.' :: rest => (rest.takeWhile Char.isDigit, rest.dropWhile Char.isDigit)
    | rest => ([], rest)
  let digits ← nat? 10 (whole ++ fraction)
  match rest with
  | [] => return scaled negative digits fraction.length 0
  | c :: rest =>
    if c = 'e' ∨ c = 'E' then return scaled negative digits fraction.length (← exponent? rest)
    else none

/-- The double that a text is. -/
def double? (cs : List Char) : Option Double :=
  let infinity := Double.ofFloat (1.0 / 0.0)
  let text := String.ofList cs
  if [".inf", ".Inf", ".INF", "+.inf", "+.Inf", "+.INF"].contains text then some infinity
  else if ["-.inf", "-.Inf", "-.INF"].contains text then some (.ofFloat (-1.0 / 0.0))
  else if [".nan", ".NaN", ".NAN"].contains text then some ⟨0x7FF8000000000000⟩
  else
    let number := match cs with
      | '-' :: rest => decimal? true rest
      | '+' :: rest => decimal? false rest
      | cs => decimal? false cs
    number.filter Double.isFinite

/-- What a scalar without quotes is. -/
def resolve (cs : List Char) : Scalar :=
  let text := String.ofList cs
  if ["", "null", "Null", "NULL", "~"].contains text then .null
  else if ["true", "True", "TRUE"].contains text then .bool true
  else if ["false", "False", "FALSE"].contains text then .bool false
  else match int? cs with
    | some n => .int n
    | none =>
      if isZeroPadded cs then .text text
      else match double? cs with
        | some d => .double d
        | none => .text text

end Gatehouse.Yaml
