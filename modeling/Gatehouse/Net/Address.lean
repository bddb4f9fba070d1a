import Gatehouse.Bytes

/-!
# Internet addresses

IP addresses in the strict textual forms: four decimal numbers without leading zeros, or eight
hexadecimal groups with at most one `::`. `IpAddress.render` writes the canonical form.
-/

namespace Gatehouse.Net

/-- An IPv4 or IPv6 address, as its bytes or its 16-bit groups. -/
inductive IpAddress
  | v4 (bytes : List UInt8)
  | v6 (groups : List UInt16)
  deriving DecidableEq, Repr, Inhabited

/-- A decimal number of at most `255` without superfluous zeros. -/
def octet? (digits : List Char) : Option UInt8 :=
  match digits with
  | [] => none
  | ['0'] => some 0
  | '0' :: _ => none
  | ds =>
    if ds.length ≤ 3 ∧ ds.all Char.isDigit then
      let n := ds.foldl (fun n c => n * 10 + (c.toNat - 48)) 0
      if n ≤ 255 then some n.toUInt8 else none
    else none

/-- The bytes of an IPv4 address. -/
def v4? (cs : List Char) : Option (List UInt8) :=
  match List.splitOn '.' cs with
  | [a, b, c, d] => [a, b, c, d].mapM octet?
  | _ => none

/-- The value of a hexadecimal digit. -/
def hexDigit? (c : Char) : Option Nat :=
  (Bytes.hexDigit? (Bytes.ofChar c)).bind fun d => if c.toNat < 128 then some d.toNat else none

/-- One to four hexadecimal digits. -/
def group? (cs : List Char) : Option UInt16 :=
  if cs.isEmpty ∨ 4 < cs.length then none
  else (cs.foldlM (fun n c => do return n * 16 + (← hexDigit? c)) 0).map Nat.toUInt16

/-- The groups between single colons, the last of which may be an IPv4 address. -/
def groups? : List (List Char) → Option (List UInt16)
  | [] => some []
  | [last] =>
    match v4? last with
    | some [a, b, c, d] => some [a.toUInt16 * 256 + b.toUInt16, c.toUInt16 * 256 + d.toUInt16]
    | _ => (group? last).map ([·])
  | g :: rest => do return (← group? g) :: (← groups? rest)

/-- The characters before and after the first double colon. -/
def splitGap : List Char → Option (List Char × List Char)
  | ':' :: ':' :: rest => some ([], rest)
  | c :: rest => (splitGap rest).map fun (before, after) => (c :: before, after)
  | [] => none

/-- The groups of one side of a gap. -/
def side? (cs : List Char) : Option (List UInt16) :=
  if cs.isEmpty then some [] else groups? (List.splitOn ':' cs)

/-- The groups of an IPv6 address. A gap stands for at least one group, and no IPv4 address stands
before it. -/
def v6? (cs : List Char) : Option (List UInt16) :=
  match splitGap cs with
  | some (before, after) => do
    let front ← side? before
    let back ← side? after
    if front.length + back.length ≤ 7 ∧ !before.contains '.' then
      return front ++ List.replicate (8 - front.length - back.length) 0 ++ back
    else none
  | none => do
    let all ← groups? (List.splitOn ':' cs)
    if all.length = 8 then return all else none

/-- The address that a text spells. -/
def IpAddress.parse? (cs : List Char) : Option IpAddress :=
  match v4? cs with
  | some bytes => some (.v4 bytes)
  | none => (v6? cs).map .v6

/-- An IPv6 address that maps an IPv4 address is that one, and the IPv6 loopback is the IPv4
loopback. -/
def IpAddress.canonical (a : IpAddress) : IpAddress :=
  match a with
  | .v6 [0, 0, 0, 0, 0, 0xFFFF, x, y] =>
    .v4 [(x / 256).toUInt8, (x % 256).toUInt8, (y / 256).toUInt8, (y % 256).toUInt8]
  | _ => if a = .v6 [0, 0, 0, 0, 0, 0, 0, 1] then .v4 [127, 0, 0, 1] else a

/-- Four decimal numbers between points. -/
def renderV4 (bytes : List UInt8) : String := ".".intercalate (bytes.map fun b => toString b.toNat)

/-- A group in hexadecimal without leading zeros. -/
def renderGroup (g : UInt16) : String := String.ofList (Nat.toDigits 16 g.toNat)

/-- The length of the run of zeros at the front. -/
def zeroRun (groups : List UInt16) : Nat := (groups.takeWhile (· == 0)).length

/-- The start and the length of the first longest run of zeros from position `at` on. -/
def longestRun (position : Nat) : List UInt16 → Nat × Nat
  | [] => (0, 0)
  | g :: rest =>
    let here := zeroRun (g :: rest)
    let later := longestRun (position + 1) rest
    if later.2 ≤ here then (position, here) else later

/-- Groups between colons, with the first longest run of two zeros or more as `::`. -/
def renderV6 (groups : List UInt16) : String :=
  let join (gs : List UInt16) := ":".intercalate (gs.map renderGroup)
  let (start, length) := longestRun 0 groups
  if length < 2 then join groups
  else join (groups.take start) ++ "::" ++ join (groups.drop (start + length))

/-- The canonical text of an address. -/
def IpAddress.render : IpAddress → String
  | .v4 bytes => renderV4 bytes
  | .v6 [0, 0, 0, 0, 0, 0xFFFF, a, b] =>
    "::ffff:" ++ renderV4
      [(a / 256).toUInt8, (a % 256).toUInt8, (b / 256).toUInt8, (b % 256).toUInt8]
  | .v6 groups => renderV6 groups

/-- An address with a port. -/
structure Endpoint where
  address : IpAddress
  port : Nat
  deriving DecidableEq, Repr, Inhabited

/-- The text of an endpoint, an IPv6 address in brackets. -/
def Endpoint.render (e : Endpoint) : String :=
  match e.address with
  | .v4 bytes => s!"{renderV4 bytes}:{e.port}"
  | a => s!"[{a.render}]:{e.port}"

/-- A decimal number of 16 bits. -/
def port? (cs : List Char) : Option Nat :=
  if cs.isEmpty ∨ ¬cs.all Char.isDigit then none
  else
    let n := cs.foldl (fun n c => n * 10 + (c.toNat - 48)) 0
    if n < 65536 then some n else none

/-- The endpoint that a text spells. -/
def Endpoint.parse? (cs : List Char) : Option Endpoint :=
  match cs with
  | '[' :: rest => do
    let groups ← v6? (rest.takeWhile (· != ']'))
    match rest.dropWhile (· != ']') with
    | ']' :: ':' :: port => return ⟨.v6 groups, ← port? port⟩
    | _ => none
  | _ => do
    let bytes ← v4? (cs.takeWhile (· != ':'))
    match cs.dropWhile (· != ':') with
    | ':' :: port => return ⟨.v4 bytes, ← port? port⟩
    | _ => none

end Gatehouse.Net
