import Gatehouse.Bytes

/-!
# Base64

Sixty-four characters stand for six bits each, four of them for three bytes. Blanks may stand
anywhere; equals signs may fill up the last four characters or be left out.
-/

namespace Gatehouse.Base64

/-- Whether a byte is skipped: a tab, a line end, a form feed or a space. -/
def isBlank (b : UInt8) : Bool := (0x09 ≤ b && b ≤ 0x0D) || b == 0x20

/-- The six bits that a character stands for. -/
def sextet? (b : UInt8) : Option Nat :=
  if 0x41 ≤ b && b ≤ 0x5A then some (b.toNat - 0x41)
  else if 0x61 ≤ b && b ≤ 0x7A then some (b.toNat - 0x61 + 26)
  else if 0x30 ≤ b && b ≤ 0x39 then some (b.toNat - 0x30 + 52)
  else if b == 0x2B then some 62
  else if b == 0x2F then some 63
  else none

/-- The bytes of groups of six bits; of a last group that is short, the bits that fill no byte are
dropped. -/
def ofSextets? : List Nat → Option Bytes
  | [] => some []
  | [_] => none
  | [a, b] => some [(a * 4 + b / 16).toUInt8]
  | [a, b, c] => some [(a * 4 + b / 16).toUInt8, (b * 16 + c / 4).toUInt8]
  | a :: b :: c :: d :: rest => (ofSextets? rest).map fun bytes =>
    (a * 4 + b / 16).toUInt8 :: (b * 16 + c / 4).toUInt8 :: (c * 64 + d).toUInt8 :: bytes

/-- The equals sign. -/
def padding : UInt8 := 0x3D

/-- Decodes a text. -/
def decode? (text : Bytes) : Option Bytes := do
  let symbols := text.filter fun b => !isBlank b
  let sextets ← (symbols.takeWhile (· != padding)).mapM sextet?
  let fill := symbols.dropWhile (· != padding)
  if fill.all (· == padding) && (fill.isEmpty || (sextets.length % 4 + fill.length = 4 && fill.length ≤ 2))
  then ofSextets? sextets
  else none

end Gatehouse.Base64
