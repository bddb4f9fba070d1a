/-!
# Byte strings

Bodies, header values, request paths and path patterns are lists of bytes. This module holds the
ASCII operations on them; `Gatehouse.Text.Utf8` relates them to text.
-/

namespace Gatehouse

/-- A finite sequence of bytes. -/
abbrev Bytes := List UInt8

namespace Bytes

/-- The UTF-8 bytes of a text, character by character. -/
def ofString (s : String) : Bytes := s.toList.flatMap String.utf8EncodeChar

/-- The byte of an ASCII character. -/
def ofChar (c : Char) : UInt8 := c.toNat.toUInt8

/-- The bytes of an ASCII text, read back as characters of the same number. -/
def toLatin (bs : Bytes) : String := String.ofList (bs.map fun b => Char.ofNat b.toNat)

/-- Whether a byte is an ASCII decimal digit. -/
def isDigit (b : UInt8) : Bool := 0x30 ≤ b && b ≤ 0x39

/-- Whether a byte is an ASCII letter. -/
def isAlpha (b : UInt8) : Bool := (0x41 ≤ b && b ≤ 0x5A) || (0x61 ≤ b && b ≤ 0x7A)

/-- An ASCII upper-case letter in lower case; every other byte is kept. -/
def toLower (b : UInt8) : UInt8 := if 0x41 ≤ b && b ≤ 0x5A then b + 0x20 else b

/-- An ASCII lower-case letter in upper case; every other byte is kept. -/
def toUpper (b : UInt8) : UInt8 := if 0x61 ≤ b && b ≤ 0x7A then b - 0x20 else b

/-- Drops the leading and trailing bytes that satisfy `p`. -/
def trimBy (p : UInt8 → Bool) (bs : Bytes) : Bytes :=
  ((bs.dropWhile p).reverse.dropWhile p).reverse

/-- The pieces between the occurrences of a separator; there is always at least one. -/
def splitOn (sep : UInt8) : Bytes → List Bytes
  | [] => [[]]
  | b :: bs =>
    if b = sep then [] :: splitOn sep bs
    else match splitOn sep bs with
      | [] => [[b]]
      | piece :: pieces => (b :: piece) :: pieces

/-- The bytes before and after the first occurrence of a separator. -/
def splitOnce (sep : UInt8) : Bytes → Option (Bytes × Bytes)
  | [] => none
  | b :: bs =>
    if b = sep then some ([], bs)
    else (splitOnce sep bs).map fun (before, after) => (b :: before, after)

/-- The value of a hexadecimal digit. -/
def hexDigit? (b : UInt8) : Option UInt8 :=
  if 0x30 ≤ b && b ≤ 0x39 then some (b - 0x30)
  else if 0x61 ≤ b && b ≤ 0x66 then some (b - 0x57)
  else if 0x41 ≤ b && b ≤ 0x46 then some (b - 0x37)
  else none

/-- The hexadecimal digit of a value below sixteen, in lower case. -/
def lowerHex (n : UInt8) : UInt8 := if n < 10 then n + 0x30 else n + 0x57

/-- The hexadecimal digit of a value below sixteen, in upper case. -/
def upperHex (n : UInt8) : UInt8 := if n < 10 then n + 0x30 else n + 0x37

/-- Two lower-case hexadecimal digits for each byte. -/
def toHex (bs : Bytes) : String :=
  toLatin (bs.flatMap fun b => [lowerHex (b / 16), lowerHex (b % 16)])

/-- The bytes that pairs of hexadecimal digits stand for. -/
def ofHex? : Bytes → Option Bytes
  | [] => some []
  | [_] => none
  | h :: l :: rest => do
    let high ← hexDigit? h
    let low ← hexDigit? l
    return (high * 16 + low) :: (← ofHex? rest)

/-- The number that a non-empty run of ASCII digits stands for. -/
def toNat? : Bytes → Option Nat
  | [] => none
  | bs =>
    if bs.all isDigit then some (bs.foldl (fun n b => n * 10 + (b.toNat - 0x30)) 0) else none

end Bytes

end Gatehouse
