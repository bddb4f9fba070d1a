import Gatehouse.Net.Address
import Gatehouse.Text.Blank
import Gatehouse.Text.Utf8
import Gatehouse.Unicode.Folding
import Gatehouse.Url.Error
import Gatehouse.Url.Percent
import Gatehouse.Url.Punycode

/-!
# Hosts

A host is a domain name or an IP address. `Host.parse` reads the host of a special URL: escapes are
resolved, letters are folded and written in ASCII, and a name whose last label is a number has to be
an IPv4 address. The host of any other URL is kept as it is written.
-/

namespace Gatehouse.Url

/-- A host. -/
inductive Host
  | domain (name : Bytes)
  | v4 (bytes : List UInt8)
  | v6 (groups : List UInt16)
  deriving DecidableEq, Repr, Inhabited

/-- The text of a host, an IPv6 address in brackets. -/
def Host.render : Host → Bytes
  | .domain name => name
  | .v4 bytes => Bytes.ofString (Net.renderV4 bytes)
  | .v6 groups => [0x5B] ++ Bytes.ofString (Net.renderV6 groups) ++ [0x5D]

/-! ## Names of letters beyond ASCII -/

/-- What a character of a name stands for: letters lose their case, wide forms are the plain ones,
ideographic stops are dots, and some characters do not count. -/
def mapped (c : Char) : List Char :=
  let n := c.toNat
  if n == 0x3002 || n == 0xFF0E || n == 0xFF61 then ['.']
  else if 0xFF01 ≤ n && n ≤ 0xFF5E then [Unicode.fold (Char.ofNat (n - 0xFEE0))]
  else if n == 0xAD || n == 0x200B || n == 0x2060 || n == 0xFEFF || (0xFE00 ≤ n && n ≤ 0xFE0F) then []
  else [Unicode.fold c]

/-- Whether a character may not stand in a name. -/
def isForbidden (c : Char) : Bool :=
  c.toNat ≤ 0x20 || c.toNat == 0x7F || "%#/:<>?@[\\]^|".toList.contains c ||
  (0x80 ≤ c.toNat && c.toNat < 0xA0) || c == '\uFFFD'

/-- Whether a label begins like an encoded one. -/
def encodedPart? : List Char → Option (List Char)
  | 'x' :: 'n' :: '-' :: '-' :: rest => some rest
  | _ => none

/-- A label in ASCII, if it is one that a name may have. -/
def asciiLabel? (label : List Char) : Option (List Char) :=
  if label.all (·.toNat < 0x80) then
    match encodedPart? label with
    | none => some label
    | some encoded => do
      let letters ← Punycode.decode? encoded
      if letters.any (0x80 ≤ ·.toNat) ∧ letters.flatMap mapped = letters ∧
          !letters.any isForbidden ∧ !letters.contains '.' ∧ Punycode.encode letters = encoded then
        return label
      else none
  else some ("xn--".toList ++ Punycode.encode label)

/-- A name in ASCII. -/
def asciiName? (name : Bytes) : Option Bytes := do
  let text ← Utf8.decode? name
  let letters := text.toList.flatMap mapped
  if letters.any isForbidden then none
  else
    let labels ← (Text.splitOn '.' letters).mapM asciiLabel?
    return (List.intercalate ['.'] labels).map Bytes.ofChar

/-! ## IPv4 addresses -/

/-- The number that digits of a base stand for. -/
def number? (base : Nat) (digits : Bytes) : Option Nat :=
  digits.foldlM (fun n b => do
    let d ← Bytes.hexDigit? b
    if d.toNat < base then return n * base + d.toNat else none) 0

/-- One part of an IPv4 address: decimal, octal behind a zero, or hexadecimal behind `0x`. -/
def ipv4Part? : Bytes → Option Nat
  | [] => none
  | [0x30] => some 0
  | 0x30 :: 0x78 :: digits => number? 16 digits
  | 0x30 :: 0x58 :: digits => number? 16 digits
  | 0x30 :: digits => number? 8 digits
  | digits => number? 10 digits

/-- The parts of a name between its dots, without an empty last one. -/
def parts (name : Bytes) : List Bytes :=
  let pieces := Bytes.splitOn 0x2E name
  if pieces.getLast? = some [] then pieces.dropLast else pieces

/-- Whether the last part of a name is a number. -/
def endsInNumber (name : Bytes) : Bool :=
  match (parts name).getLast? with
  | none => false
  | some last => (!last.isEmpty && last.all Bytes.isDigit) || (ipv4Part? last).isSome

/-- The address that the parts of a name spell: the last one stands for all bytes that remain. -/
def ipv4? (name : Bytes) : Option (List UInt8) := do
  let numbers ← (parts name).mapM ipv4Part?
  let last ← numbers.getLast?
  let front := numbers.dropLast
  if front.length ≤ 3 ∧ front.all (· ≤ 255) ∧ last < Nat.pow 256 (4 - front.length) then
    let rest := (List.range (4 - front.length)).map fun i =>
      (last / Nat.pow 256 (3 - front.length - i) % 256).toUInt8
    return front.map Nat.toUInt8 ++ rest
  else none

/-! ## Hosts -/

/-- The address between brackets. -/
def bracketed? (text : Bytes) : Option Host :=
  match text with
  | 0x5B :: rest =>
    if rest.getLast? = some 0x5D then
      (Net.v6? (rest.dropLast.map fun b => Char.ofNat b.toNat)).map .v6
    else none
  | _ => none

/-- The host of a special URL. -/
def Host.parse (text : Bytes) : Except ParseError Host :=
  if text.isEmpty then .error .emptyHost
  else if text.head? = some 0x5B then
    match bracketed? text with
    | some host => .ok host
    | none => .error .invalidIpv6
  else match asciiName? (decode text) with
    | none => .error .invalidDomain
    | some [] => .error .emptyHost
    | some name =>
      if endsInNumber name then
        match ipv4? name with
        | some bytes => .ok (.v4 bytes)
        | none => .error .invalidIpv4
      else .ok (.domain name)

/-- Whether a byte may not stand in the host of a URL that is not special. -/
def isForbiddenOpaque (b : UInt8) : Bool :=
  b == 0 || b == 0x20 || (Bytes.ofString "#/:<>?@[\\]^|").contains b

/-- The host of a URL that is not special. -/
def Host.parseOpaque (text : Bytes) : Except ParseError Host :=
  if text.head? = some 0x5B then
    match bracketed? text with
    | some host => .ok host
    | none => .error .invalidIpv6
  else if text.any isForbiddenOpaque then .error .invalidHostCharacter
  else .ok (.domain (encode controlSet text))

end Gatehouse.Url
