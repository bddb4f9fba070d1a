import Gatehouse.Bytes

/-!
# Text in bytes

`Utf8.decode?` reads bytes that are well-formed UTF-8, and `Utf8.decodeLossy` reads any bytes, with
one replacement character for every longest ill-formed start of a character.
-/

namespace Gatehouse.Utf8

/-- What a first byte asks for: how many bytes follow, the bounds of the next one, and the bits
that the first byte gives. -/
structure Lead where
  owed : Nat
  low : UInt8
  high : UInt8
  bits : Nat

/-- The demand of a byte of 0x80 or above at the start of a character. -/
def Lead.ofByte? (b : UInt8) : Option Lead :=
  if 0xC2 ≤ b && b ≤ 0xDF then some ⟨1, 0x80, 0xBF, (b - 0xC0).toNat⟩
  else if b == 0xE0 then some ⟨2, 0xA0, 0xBF, 0⟩
  else if b == 0xED then some ⟨2, 0x80, 0x9F, 0xD⟩
  else if 0xE1 ≤ b && b ≤ 0xEF then some ⟨2, 0x80, 0xBF, (b - 0xE0).toNat⟩
  else if b == 0xF0 then some ⟨3, 0x90, 0xBF, 0⟩
  else if 0xF1 ≤ b && b ≤ 0xF3 then some ⟨3, 0x80, 0xBF, (b - 0xF0).toNat⟩
  else if b == 0xF4 then some ⟨3, 0x80, 0x8F, 4⟩
  else none

/-- Follows a character that is owed bytes: the character if all come, and what is left. -/
def follow (owed : Nat) (low high : UInt8) (bits : Nat) (bs : Bytes) : Option Char × Bytes :=
  match owed, bs with
  | 0, bs => (some (Char.ofNat bits), bs)
  | _ + 1, [] => (none, [])
  | owed + 1, b :: bs =>
    if low ≤ b && b ≤ high then follow owed 0x80 0xBF (bits * 64 + (b % 64).toNat) bs
    else (none, b :: bs)

/-- The character that starts with byte `b`, if `rest` continues it, and what is left of `rest`. -/
def next (b : UInt8) (rest : Bytes) : Option Char × Bytes :=
  if b < 0x80 then (some (Char.ofNat b.toNat), rest)
  else match Lead.ofByte? b with
    | some lead => follow lead.owed lead.low lead.high lead.bits rest
    | none => (none, rest)

theorem length_follow_le (owed : Nat) (low high : UInt8) (bits : Nat) (bs : Bytes) :
    (follow owed low high bits bs).2.length ≤ bs.length := by
  induction owed generalizing low high bits bs with
  | zero => simp [follow]
  | succ owed ih =>
    cases bs with
    | nil => simp [follow]
    | cons b bs =>
      simp only [follow]
      split
      · exact Nat.le_succ_of_le (ih 0x80 0xBF _ bs)
      · simp

theorem length_next_le (b : UInt8) (rest : Bytes) : (next b rest).2.length ≤ rest.length := by
  unfold next
  split
  · simp
  · split
    · exact length_follow_le _ _ _ _ _
    · simp

/-- The characters of the bytes in order, `none` for each longest ill-formed start of one. -/
def characters : Bytes → List (Option Char)
  | [] => []
  | b :: rest =>
    (next b rest).1 :: characters (next b rest).2
termination_by bs => bs.length
decreasing_by exact Nat.lt_succ_of_le (length_next_le b rest)

/-- The text of well-formed bytes. -/
def decode? (bs : Bytes) : Option String :=
  ((characters bs).mapM id).map String.ofList

/-- The text of any bytes, with U+FFFD for what is ill-formed. -/
def decodeLossy (bs : Bytes) : String :=
  String.ofList ((characters bs).map fun c => c.getD '\uFFFD')

end Gatehouse.Utf8
