import Gatehouse.Bytes

/-!
# DER

An element is a tag, the length of its content in the fewest bytes, and the content. The elements
here have tags of one byte and contents of less than 2^16 bytes.
-/

namespace Gatehouse.Tls.Der

/-- The tag of an integer. -/
def integer : UInt8 := 0x02

/-- The tag of a sequence. -/
def sequence : UInt8 := 0x30

/-- The tag of a bit string. -/
def bitString : UInt8 := 0x03

/-- The tag of an octet string. -/
def octetString : UInt8 := 0x04

/-- The tag of a named object. -/
def objectId : UInt8 := 0x06

/-- The tag of a truth value. -/
def boolean : UInt8 := 0x01

/-- The tag of a constructed element that its place tells apart. -/
def place (n : UInt8) : UInt8 := 0xA0 + n

/-- The length at the front. -/
def length? : Bytes → Option (Nat × Bytes)
  | 0x81 :: a :: rest => if 0x80 ≤ a then some (a.toNat, rest) else none
  | 0x82 :: a :: b :: rest => if a = 0 then none else some (a.toNat * 256 + b.toNat, rest)
  | a :: rest => if a < 0x80 then some (a.toNat, rest) else none
  | [] => none

/-- The content of an element with a tag at the front, and what follows it. -/
def next? (tag : UInt8) : Bytes → Option (Bytes × Bytes)
  | [] => none
  | t :: rest => do
    if t != tag then none
    else
      let (n, rest) ← length? rest
      if rest.length < n then none else some (rest.take n, rest.drop n)

/-- Whether an element with a tag is next. -/
def peeks (tag : UInt8) (bs : Bytes) : Bool := bs.head? == some tag

/-- The content of an element with a tag, after which nothing follows. -/
def only? (tag : UInt8) (bs : Bytes) : Option Bytes := do
  let (content, rest) ← next? tag bs
  if rest.isEmpty then some content else none

/-- The bytes of a bit string at the front that fills all of its bytes, and what follows it. -/
def bits? (bs : Bytes) : Option (Bytes × Bytes) := do
  match ← next? bitString bs with
  | (0 :: content, rest) => some (content, rest)
  | _ => none

/-- The number that bytes stand for, the gravest first. -/
def natOf (bs : Bytes) : Nat := bs.foldl (fun n b => n * 256 + b.toNat) 0

/-- The natural number at the front, in the fewest bytes, and what follows it. -/
def nat? (bs : Bytes) : Option (Nat × Bytes) := do
  match ← next? integer bs with
  | ([a], rest) => if a < 0x80 then some (a.toNat, rest) else none
  | (a :: b :: content, rest) =>
    if a < 0x80 && (a != 0 || 0x80 ≤ b) then some (natOf (a :: b :: content), rest) else none
  | _ => none

/-- The bytes of a length. -/
def lengthBytes (n : Nat) : Bytes :=
  if n < 0x80 then [n.toUInt8]
  else if n < 0x100 then [0x81, n.toUInt8]
  else [0x82, (n / 256).toUInt8, n.toUInt8]

/-- Writes an element. -/
def element (tag : UInt8) (content : Bytes) : Bytes := tag :: lengthBytes content.length ++ content

end Gatehouse.Tls.Der
