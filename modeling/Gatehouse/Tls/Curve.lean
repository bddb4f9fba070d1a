import Gatehouse.Tls.Der

/-!
# Elliptic curves

The curves `y² = x³ - 3x + b` over a prime field whose keys the gateway can use, with the addition of
their points. A private key is a number, and its public key that multiple of the base point.
-/

namespace Gatehouse.Tls

/-- A point of a curve; `none` is the point at infinity. -/
abbrev CurvePoint := Option (Nat × Nat)

/-- A curve: its name, the bytes of a coordinate, the prime of its field, its constant, its base
point and the order of that. -/
structure Curve where
  id : Bytes
  size : Nat
  prime : Nat
  constant : Nat
  base : CurvePoint
  order : Nat

namespace Curve

/-- The curve over 256 bits. -/
def p256 : Curve where
  id := [0x2A, 0x86, 0x48, 0xCE, 0x3D, 0x03, 0x01, 0x07]
  size := 32
  prime := 0xffffffff00000001000000000000000000000000ffffffffffffffffffffffff
  constant := 0x5ac635d8aa3a93e7b3ebbd55769886bc651d06b0cc53b0f63bce3c3e27d2604b
  base := some (0x6b17d1f2e12c4247f8bce6e563a440f277037d812deb33a0f4a13945d898c296,
    0x4fe342e2fe1a7f9b8ee7eb4a7c0f9e162bce33576b315ececbb6406837bf51f5)
  order := 0xffffffff00000000ffffffffffffffffbce6faada7179e84f3b9cac2fc632551

/-- The curve over 384 bits. -/
def p384 : Curve where
  id := [0x2B, 0x81, 0x04, 0x00, 0x22]
  size := 48
  prime := 0xfffffffffffffffffffffffffffffffffffffffffffffffffffffffffffffffeffffffff0000000000000000ffffffff
  constant := 0xb3312fa7e23ee7e4988e056be3f82d19181d9c6efe8141120314088f5013875ac656398d8a2ed19d2a85c8edd3ec2aef
  base := some
    (0xaa87ca22be8b05378eb1c71ef320ad746e1d3b628ba79b9859f741e082542a385502f25dbf55296c3a545e3872760ab7,
    0x3617de4a96262c6f5d9e98bf9292dc29f8f41dbd289a147ce9da3113b5f0b8c00a60b1ce1d7e819d7a431d7c90ea0e5f)
  order := 0xffffffffffffffffffffffffffffffffffffffffffffffffc7634d81f4372ddf581a0db248b0a77aecec196accc52973

/-- A power modulo `m`, by squaring. -/
def power (m b e : Nat) : Nat :=
  if e = 0 then 1 % m
  else
    let half := power m (b * b % m) (e / 2)
    if e % 2 = 0 then half else half * b % m
termination_by e
decreasing_by omega

/-- The inverse of a number that the prime does not divide: its power to the prime less two. -/
def inverse (c : Curve) (n : Nat) : Nat := power c.prime n (c.prime - 2)

/-- The difference in the field. -/
def minus (c : Curve) (m n : Nat) : Nat := (m + (c.prime - n % c.prime)) % c.prime

/-- Where the line of a slope through two points, given by the first point and the other's abscissa,
leads. -/
def follow (c : Curve) (slope : Nat) (x y x' : Nat) : CurvePoint :=
  let x'' := c.minus (c.minus (slope * slope) x) x'
  some (x'', c.minus (slope * c.minus x x'') y)

/-- The sum of two points. -/
def add (c : Curve) : CurvePoint → CurvePoint → CurvePoint
  | none, q => q
  | p, none => p
  | some (x, y), some (x', y') =>
    if x ≠ x' then c.follow (c.minus y' y * c.inverse (c.minus x' x)) x y x'
    else if y = y' ∧ y ≠ 0 then
      c.follow (c.minus (3 * x * x) 3 * c.inverse (2 * y % c.prime)) x y x
    else none

/-- A multiple of a point, by doubling. -/
def times (c : Curve) (n : Nat) (p : CurvePoint) : CurvePoint :=
  if n = 0 then none
  else
    let half := times c (n / 2) (c.add p p)
    if n % 2 = 0 then half else c.add half p
termination_by n
decreasing_by omega

/-- A coordinate as bytes, the gravest first. -/
def bytesOf (size n : Nat) : Bytes :=
  (List.range size).map fun i => (n / Nat.pow 256 (size - 1 - i)).toUInt8

/-- A point as bytes: a mark and both coordinates. -/
def encode (c : Curve) : CurvePoint → Bytes
  | none => [0]
  | some (x, y) => 0x04 :: (bytesOf c.size x ++ bytesOf c.size y)

/-- The public key of a private one, which has as many bytes as a coordinate and is not zero or beyond
the order. -/
def publicKey? (c : Curve) (secret : Bytes) : Option Bytes :=
  let n := Der.natOf secret
  if secret.length = c.size ∧ 0 < n ∧ n < c.order then some (c.encode (c.times n c.base)) else none

/-- The curves. -/
def all : List Curve := [p256, p384]

end Curve

end Gatehouse.Tls
