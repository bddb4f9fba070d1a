import Gatehouse.Http.Header
import Gatehouse.Text.Utf8

/-!
# Request targets

The target of a request is a path with an optional query, and in absolute form also a scheme and
an authority. `Target.parse?` checks the characters and keeps them as they are.
-/

namespace Gatehouse.Http

/-- A request target. -/
structure Target where
  scheme : Option Bytes := none
  authority : Option Bytes := none
  /-- The path as written; in absolute form it may be empty. -/
  rawPath : Bytes := []
  query : Option Bytes := none
  deriving DecidableEq, Repr, Inhabited

namespace Target

/-- The longest target. -/
def maxLength : Nat := 65534

/-- The bytes other than letters and digits that an authority may hold. -/
def authorityMarks : Bytes := Bytes.ofString "!$&'()*+,-.:;=@[]_~"

/-- Whether a byte ends an authority. -/
def endsAuthority (b : UInt8) : Bool := b == 0x2F || b == 0x3F || b == 0x23

/-- What has been seen of an authority. -/
structure Scan where
  colons : Nat := 0
  opened : Bool := false
  closed : Bool := false
  percent : Bool := false
  endsWithAt : Bool := false

/-- Takes in one byte of an authority. User information before `@` may hold more than a host. -/
def Scan.step? (s : Scan) (b : UInt8) : Option Scan :=
  let s := { s with endsWithAt := false }
  if b == 0x3A then if 8 ≤ s.colons then none else some { s with colons := s.colons + 1 }
  else if b == 0x5B then if s.percent || s.opened then none else some { s with opened := true }
  else if b == 0x5D then
    if !s.opened || s.closed then none
    else some { s with closed := true, colons := 0, percent := false }
  else if b == 0x40 then some { s with colons := 0, percent := false, endsWithAt := true }
  else if b == 0x25 then some { s with percent := true }
  else if Bytes.isAlpha b || Bytes.isDigit b || authorityMarks.contains b then some s
  else none

/-- Whether bytes are an authority: at most one colon outside user information and brackets, and
brackets that close. -/
def isAuthority (bs : Bytes) : Bool :=
  match bs.foldlM Scan.step? {} with
  | none => false
  | some s => s.opened == s.closed && s.colons ≤ 1 && !s.percent && !s.endsWithAt

/-- Whether a byte may stand in a path. -/
def isPathByte (b : UInt8) : Bool :=
  b == 0x21 || (0x24 ≤ b && b ≤ 0x3B) || b == 0x3D || (0x40 ≤ b && b ≤ 0x5F) ||
  (0x61 ≤ b && b ≤ 0x7A) || b == 0x7C || b == 0x7E || 0x7F ≤ b ||
  b == 0x22 || b == 0x7B || b == 0x7D

/-- Whether a byte may stand in a query. -/
def isQueryByte (b : UInt8) : Bool :=
  b == 0x21 || (0x24 ≤ b && b ≤ 0x3B) || b == 0x3D || 0x3F ≤ b

/-- The target with a path and a query that bytes spell; what follows `#` is dropped. -/
def withPathAndQuery? (t : Target) (bs : Bytes) : Option Target :=
  let bs := bs.takeWhile (· != 0x23)
  let path := bs.takeWhile (· != 0x3F)
  let query := match bs.dropWhile (· != 0x3F) with
    | [] => none
    | _ :: q => some q
  if path.all isPathByte && (query.getD []).all isQueryByte && (Utf8.decode? bs).isSome then
    some { t with rawPath := path, query }
  else none

/-- Whether a byte may stand in a scheme. -/
def isSchemeByte (b : UInt8) : Bool :=
  Bytes.isAlpha b || Bytes.isDigit b || b == 0x2B || b == 0x2D || b == 0x2E

/-- The longest scheme. -/
def maxSchemeLength : Nat := 64

/-- The scheme in front of `://` and what follows. -/
def splitScheme? (bs : Bytes) : Option (Bytes × Bytes) :=
  match bs.dropWhile isSchemeByte with
  | 0x3A :: 0x2F :: 0x2F :: rest => some (bs.takeWhile isSchemeByte, rest)
  | _ => none

/-- A scheme that everyone knows is kept in lower case. -/
def canonicalScheme (scheme : Bytes) : Bytes :=
  let lower := scheme.map Bytes.toLower
  if lower = Bytes.ofString "http" ∨ lower = Bytes.ofString "https" then lower else scheme

/-- The target that bytes spell: `*`, a path with a query, an authority, or a scheme with both. -/
def parse? (bs : Bytes) : Option Target :=
  if bs.isEmpty || maxLength < bs.length then none
  else if bs = [0x2A] then some { rawPath := bs }
  else if bs.head? = some 0x2F then withPathAndQuery? {} bs
  else match splitScheme? bs with
    | some (scheme, rest) =>
      let authority := rest.takeWhile fun b => !endsAuthority b
      if scheme.isEmpty || maxSchemeLength < scheme.length || authority.isEmpty ||
          !isAuthority authority then none
      else withPathAndQuery? { scheme := canonicalScheme scheme, authority }
        (rest.dropWhile fun b => !endsAuthority b)
    | none => if isAuthority bs then some { authority := bs } else none

/-- The path, which is never empty in absolute form. -/
def path (t : Target) : Bytes :=
  if t.rawPath.isEmpty ∧ (t.scheme.isSome ∨ t.query.isSome) then [0x2F] else t.rawPath

/-- The path with the query as written, a slash if there is neither. -/
def pathAndQuery (t : Target) : Bytes :=
  let query := match t.query with
    | none => []
    | some q => 0x3F :: q
  if t.rawPath.isEmpty && query.isEmpty then [0x2F] else t.rawPath ++ query

/-- What follows the last `@` of an authority. -/
def afterAt (authority : Bytes) : Bytes :=
  (authority.reverse.takeWhile (· != 0x40)).reverse

/-- The host of an authority, an IPv6 address with its brackets. -/
def hostOf (authority : Bytes) : Bytes :=
  match afterAt authority with
  | 0x5B :: rest => 0x5B :: rest.takeWhile (· != 0x5D) ++ [0x5D]
  | hostPort => hostPort.takeWhile (· != 0x3A)

/-- The host of the target. -/
def host? (t : Target) : Option Bytes := t.authority.map hostOf

/-- The target in full. -/
def render (t : Target) : Bytes :=
  (match t.scheme with | none => [] | some s => s ++ [0x3A, 0x2F, 0x2F]) ++
  t.authority.getD [] ++ t.path ++
  (match t.query with | none => [] | some q => 0x3F :: q)

end Target

/-- The head of a request. -/
structure RequestHead where
  method : Bytes := Bytes.ofString "GET"
  target : Target := { rawPath := [0x2F] }
  headers : Headers := []
  deriving DecidableEq, Repr, Inhabited

/-- The host a request is for: that of its target, or else of its `host` header. -/
def RequestHead.host? (r : RequestHead) : Option Bytes :=
  match r.target.host? with
  | some h => some h
  | none => r.headers.firstText? Http.host

end Gatehouse.Http
