import Gatehouse.Bytes

/-!
# Percent coding

`encode` writes the bytes of a set as `%` and two digits, and `decode` reads any such escapes. Each
part of a URL has its own set.
-/

namespace Gatehouse.Url

/-- The bytes that a part of a URL writes as escapes. -/
abbrev EncodeSet := UInt8 → Bool

/-- Control bytes and everything beyond ASCII. -/
def controlSet : EncodeSet := fun b => b < 0x20 || 0x7F ≤ b

/-- The set of a fragment. -/
def fragmentSet : EncodeSet := fun b =>
  controlSet b || b == 0x20 || b == 0x22 || b == 0x3C || b == 0x3E || b == 0x60

/-- The set of a path. -/
def pathSet : EncodeSet := fun b =>
  fragmentSet b || b == 0x23 || b == 0x3F || b == 0x7B || b == 0x7D

/-- The set of a user name or a password. -/
def userSet : EncodeSet := fun b =>
  pathSet b || b == 0x2F || b == 0x3A || b == 0x3B || b == 0x3D || b == 0x40 ||
  (0x5B ≤ b && b ≤ 0x5E) || b == 0x7C

/-- The set of a query; in a URL of a special scheme a quote belongs to it. -/
def querySet (special : Bool) : EncodeSet := fun b =>
  controlSet b || b == 0x20 || b == 0x22 || b == 0x23 || b == 0x3C || b == 0x3E ||
  (special && b == 0x27)

/-- A byte as an escape. -/
def escape (b : UInt8) : Bytes := [0x25, Bytes.upperHex (b / 16), Bytes.upperHex (b % 16)]

/-- Writes the bytes of a set as escapes and the others as they are. -/
def encode (set : EncodeSet) (bs : Bytes) : Bytes :=
  bs.flatMap fun b => if set b then escape b else [b]

/-- The bytes of a text with escapes; a `%` that starts none stands for itself. -/
def decode : Bytes → Bytes
  | [] => []
  | 0x25 :: h :: l :: rest =>
    match Bytes.hexDigit? h, Bytes.hexDigit? l with
    | some high, some low => (high * 16 + low) :: decode rest
    | _, _ => 0x25 :: decode (h :: l :: rest)
  | b :: rest => b :: decode rest

end Gatehouse.Url
