/-!
# Doubles

An IEEE double is kept as its 64 bits, so that its exact value is arithmetic on them and equality
is decidable. `Double.toInt?` says which integer a double is, if any.
-/

namespace Gatehouse

/-- An IEEE 754 binary64 number, as its bits. -/
structure Double where
  bits : UInt64
  deriving DecidableEq, Repr, Inhabited

namespace Double

/-- The double that a machine float is. -/
def ofFloat (x : Float) : Double := ⟨x.toBits⟩

/-- The machine float of a double. -/
def toFloat (d : Double) : Float := Float.ofBits d.bits

/-- Whether the sign bit is set. -/
def isNegative (d : Double) : Bool := d.bits >>> 63 == 1

/-- The eleven exponent bits. -/
def exponentBits (d : Double) : Nat := ((d.bits >>> 52) &&& 0x7FF).toNat

/-- The fifty-two fraction bits. -/
def fractionBits (d : Double) : Nat := (d.bits &&& 0xFFFFFFFFFFFFF).toNat

/-- Whether the double is neither an infinity nor a NaN. -/
def isFinite (d : Double) : Bool := d.exponentBits != 0x7FF

/-- The magnitude of a finite double is `significand · 2 ^ (shift - 1074)`. -/
def significand (d : Double) : Nat :=
  if d.exponentBits = 0 then d.fractionBits else d.fractionBits + Nat.pow 2 52

/-- How far the significand is shifted above the least positive double. -/
def shift (d : Double) : Nat := d.exponentBits - 1

/-- The integer that a double is exactly, when it is one. -/
def toInt? (d : Double) : Option Int :=
  if d.isFinite then
    let scaled := d.significand * Nat.pow 2 d.shift
    if scaled % Nat.pow 2 1074 = 0 then
      let magnitude : Int := (scaled / Nat.pow 2 1074 : Nat)
      some (if d.isNegative then -magnitude else magnitude)
    else none
  else none

/-- Sixteen hexadecimal digits of the bits. -/
def toHex (d : Double) : String :=
  String.ofList <| (List.range 16).map fun i =>
    Nat.digitChar ((d.bits >>> (60 - 4 * i).toUInt64) &&& 0xF).toNat

end Double

end Gatehouse
