import Gatehouse.Double

/-!
# The shortest decimal of a double

`Double.shortest` finds the fewest decimal digits that read back as the same double, and of those
the digits nearest to it, in exact integer arithmetic. `DecimalFormat` says how they are laid out.
-/

namespace Gatehouse.Double

/-- A decimal number: `digits · 10 ^ exponent`. -/
structure Decimal where
  digits : Nat
  exponent : Int
  deriving Repr, Inhabited

/-- A non-negative fraction. -/
structure Ratio where
  num : Nat
  den : Nat

/-- The fraction `n · 2 ^ e`. -/
def Ratio.ofBinary (n : Nat) (e : Int) : Ratio :=
  if e < 0 then ⟨n, Nat.pow 2 (-e).toNat⟩ else ⟨n * Nat.pow 2 e.toNat, 1⟩

/-- The fraction divided by `10 ^ e`. -/
def Ratio.downBy (r : Ratio) (e : Int) : Ratio :=
  if e < 0 then ⟨r.num * Nat.pow 10 (-e).toNat, r.den⟩ else ⟨r.num, r.den * Nat.pow 10 e.toNat⟩

/-- The numbers that round to a double: from `low` to `high`, in units of a quarter of the last
binary place, with the ends when `closed`. -/
structure Interval where
  low : Ratio
  value : Ratio
  high : Ratio
  closed : Bool

/-- The numbers that round to the magnitude of a finite double. -/
def interval (d : Double) : Interval :=
  let m := d.significand
  let q : Int := d.shift - 1076
  let below := if d.fractionBits = 0 ∧ 1 < d.exponentBits then 1 else 2
  ⟨.ofBinary (4 * m - below) q, .ofBinary (4 * m) q, .ofBinary (4 * m + 2) q, m % 2 = 0⟩

/-- Whether an integer lies in an interval. -/
def Interval.contains (i : Interval) (n : Nat) : Bool :=
  if i.closed then i.low.num ≤ n * i.low.den && n * i.high.den ≤ i.high.num
  else i.low.num < n * i.low.den && n * i.high.den < i.high.num

/-- The interval in units of `10 ^ e`. -/
def Interval.downBy (i : Interval) (e : Int) : Interval :=
  { i with low := i.low.downBy e, value := i.value.downBy e, high := i.high.downBy e }

/-- The neighbour of the value among the integers that lies in the interval, the nearer of two. -/
def Interval.nearest? (i : Interval) : Option Nat :=
  let floor := i.value.num / i.value.den
  let nearer := if 2 * (i.value.num % i.value.den) < i.value.den then floor else floor + 1
  let other := if nearer = floor then floor + 1 else floor
  if i.contains nearer then some nearer
  else if i.contains other then some other
  else none

/-- How many times a fraction must be multiplied by ten to reach one, counted up to `fuel`. -/
def leadingZeros (r : Ratio) : (fuel : Nat) → Nat
  | 0 => 0
  | fuel + 1 => if r.den ≤ r.num then 0 else leadingZeros ⟨r.num * 10, r.den⟩ fuel + 1

/-- The exponent of the first digit of a positive fraction. -/
def leadingExponent (r : Ratio) : Int :=
  if r.den ≤ r.num then ((Nat.toDigits 10 (r.num / r.den)).length : Int) - 1
  else -(leadingZeros r 400 : Int)

/-- The first digit count, from `count` on, at which some decimal reads back. -/
def shortestFrom (i : Interval) (lead : Int) (count : Nat) : (fuel : Nat) → Decimal
  | 0 => ⟨0, 0⟩
  | fuel + 1 =>
    let exponent := lead - count + 1
    match (i.downBy exponent).nearest? with
    | some digits => ⟨digits, exponent⟩
    | none => shortestFrom i lead (count + 1) fuel

/-- Drops trailing zeros of the digits. -/
def Decimal.strip (d : Decimal) : (fuel : Nat) → Decimal
  | 0 => d
  | fuel + 1 =>
    if d.digits ≠ 0 ∧ d.digits % 10 = 0 then Decimal.strip ⟨d.digits / 10, d.exponent + 1⟩ fuel
    else d

/-- The shortest decimal that reads back as the magnitude of a finite double. -/
def shortest (d : Double) : Decimal :=
  if d.significand = 0 then ⟨0, 0⟩
  else
    let i := d.interval
    (shortestFrom i (leadingExponent i.value) 1 17).strip 20

/-- How a decimal is laid out: positionally when the point falls after at least `least` and at most
`most` places, counted from the first digit, and otherwise with an exponent. -/
structure DecimalFormat where
  least : Int
  most : Int

/-- The layout of a decimal under a format, with a fraction part of at least one digit in the
positional form. -/
def Decimal.render (f : DecimalFormat) (d : Decimal) : String :=
  let digits := Nat.toDigits 10 d.digits
  let point : Int := digits.length + d.exponent
  let zeros (n : Int) : List Char := List.replicate n.toNat '0'
  String.ofList <|
    if d.digits = 0 then ['0', '.', '0']
    else if f.least ≤ point ∧ point ≤ f.most then
      if 0 ≤ d.exponent then digits ++ zeros d.exponent ++ ['.', '0']
      else if 0 < point then digits.take point.toNat ++ '.' :: digits.drop point.toNat
      else '0' :: '.' :: zeros (-point) ++ digits
    else
      let mantissa := match digits with
        | [] => []
        | [c] => [c]
        | c :: rest => c :: '.' :: rest
      mantissa ++ 'e' :: (toString (point - 1)).toList

/-- The text of a finite double under a format. -/
def render (f : DecimalFormat) (d : Double) : String :=
  (if d.isNegative then "-" else "") ++ d.shortest.render f

end Gatehouse.Double
