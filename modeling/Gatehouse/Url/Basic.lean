import Gatehouse.Url.Host
import Gatehouse.Url.Path

/-!
# URLs

A URL is kept in its parts, each with its escapes. `Url.parse` reads an absolute URL by the rules of
the URL standard and `Url.render` writes it; `setPath` and `setQuery` put in a part that is text.
-/

namespace Gatehouse

/-- An absolute URL. -/
structure Url where
  scheme : Bytes
  username : Bytes := []
  password : Option Bytes := none
  /-- The host, if there is an authority; outside special schemes it may be empty. -/
  host : Option Url.Host := none
  /-- The port, if it is not the default one of the scheme. -/
  port : Option Nat := none
  path : Bytes := []
  query : Option Bytes := none
  fragment : Option Bytes := none
  deriving DecidableEq, Repr, Inhabited

namespace Url

/-- The scheme `http`. -/
def http : Bytes := Bytes.ofString "http"

/-- The scheme `https`. -/
def https : Bytes := Bytes.ofString "https"

/-- The scheme `file`. -/
def file : Bytes := Bytes.ofString "file"

/-- The default port of a scheme. -/
def defaultPort? (scheme : Bytes) : Option Nat :=
  if scheme = http ∨ scheme = Bytes.ofString "ws" then some 80
  else if scheme = https ∨ scheme = Bytes.ofString "wss" then some 443
  else if scheme = Bytes.ofString "ftp" then some 21
  else none

/-- Whether a scheme is special: its URLs have a host and backslashes count as slashes. -/
def isSpecial (scheme : Bytes) : Bool := (defaultPort? scheme).isSome || scheme == file

/-! ## Reading -/

/-- Whether a byte may stand behind the first letter of a scheme. -/
def isSchemeByte (b : UInt8) : Bool :=
  Bytes.isAlpha b || Bytes.isDigit b || b == 0x2B || b == 0x2D || b == 0x2E

/-- The scheme in lower case and what follows its colon. -/
def splitScheme? (text : Bytes) : Option (Bytes × Bytes) :=
  match text.takeWhile isSchemeByte, text.dropWhile isSchemeByte with
  | first :: more, 0x3A :: rest =>
    if Bytes.isAlpha first then some ((first :: more).map Bytes.toLower, rest) else none
  | _, _ => none

/-- Splits at the first byte that satisfies `p`; the byte stays with what follows. -/
def cut (p : UInt8 → Bool) (bs : Bytes) : Bytes × Bytes := bs.span fun b => !p b

/-- The path text, the query and the fragment of what follows an authority. -/
def tailParts (text : Bytes) : Bytes × Option Bytes × Option Bytes :=
  let (text, fragment) := cut (· == 0x23) text
  let (path, query) := cut (· == 0x3F) text
  (path, query.tail?, fragment.tail?)

/-- A URL with its query and its fragment, from their texts. -/
def withTail (u : Url) (query fragment : Option Bytes) : Url :=
  { u with
    query := query.map (encode (querySet (isSpecial u.scheme)))
    fragment := fragment.map (encode fragmentSet) }

/-- Splits a host from its port; a colon between brackets is part of the host. -/
def splitHost (bracketed : Bool) : Bytes → Bytes × Bytes
  | [] => ([], [])
  | b :: bs =>
    if b == 0x3A && !bracketed then ([], b :: bs)
    else
      let bracketed := if b == 0x5B then true else if b == 0x5D then false else bracketed
      let (host, rest) := splitHost bracketed bs
      (b :: host, rest)

/-- A port number: digits up to 65535, or none. -/
def port? (text : Bytes) : Except ParseError (Option Nat) :=
  if text.isEmpty then .ok none
  else match Bytes.toNat? text with
    | some n => if n < 65536 then .ok (some n) else .error .invalidPort
    | none => .error .invalidPort

/-- The user information before the last `@` and what follows it. -/
def splitUser (authority : Bytes) : Option Bytes × Bytes :=
  match authority.reverse.span (· ≠ 0x40) with
  | (host, 0x40 :: user) => (some user.reverse, host.reverse)
  | (host, _) => (none, host.reverse)

/-- The user name and the password of user information. -/
def credentials (user : Bytes) : Bytes × Option Bytes :=
  let (name, password) := cut (· == 0x3A) user
  (encode userSet name, match password with
    | _ :: b :: more => some (encode userSet (b :: more))
    | _ => none)

/-- Reads an authority and the parts behind it. -/
def parseAuthority (scheme text : Bytes) : Except ParseError Url := do
  let special := isSpecial scheme
  let (authority, rest) := cut (fun b => isSeparator special b || b == 0x3F || b == 0x23) text
  let (user, address) := splitUser authority
  let (username, password) := credentials (user.getD [])
  let (hostText, portText) := splitHost false address
  let host ← if special then Host.parse hostText else Host.parseOpaque hostText
  -- Behind a port, a backslash begins the path of any URL.
  let (portDigits, behindPort) := cut (· == 0x5C) portText.tail
  if hostText.isEmpty && (!portText.isEmpty || !username.isEmpty || password.isSome ||
      (user.isSome && address.isEmpty && !rest.isEmpty)) then
    throw .emptyHost
  let port ← port? portDigits
  let (path, query, fragment) := tailParts (behindPort ++ rest)
  let path := if special || !path.isEmpty then resolve special path else []
  return withTail
    { scheme, username, password, host, path,
      port := if port = defaultPort? scheme then none else port }
    query fragment

/-- Reads what follows the scheme `file`; a path on a drive has no host. -/
def parseFile (text : Bytes) : Except ParseError Url := do
  let (authority, rest) := match text with
    | a :: b :: rest =>
      if isSeparator true a && isSeparator true b then
        cut (fun b => isSeparator true b || b == 0x3F || b == 0x23) rest
      else ([], text)
    | _ => ([], text)
  let (host, rest) ←
    if isDrive authority then pure (none, authority ++ rest)
    else if authority.isEmpty then pure (none, rest)
    else do
      let host ← Host.parse authority
      pure (if host = .domain (Bytes.ofString "localhost") then none else some host, rest)
  let (path, query, fragment) := tailParts rest
  let path := resolve true path
  return withTail (match drivePath? path with
    | some onDrive => { scheme := file, path := onDrive }
    | none => { scheme := file, host, path }) query fragment

/-- Reads what follows a scheme that is not special. -/
def parseOther (scheme text : Bytes) : Except ParseError Url :=
  match text with
  | 0x2F :: 0x2F :: rest => parseAuthority scheme rest
  | _ =>
    let (path, query, fragment) := tailParts text
    let path := if path.head? = some 0x2F then resolve false path else encode controlSet path
    .ok (withTail { scheme, path } query fragment)

/-- Whether a byte is a tab or a line end, which a URL does not contain. -/
def isLineBreak (b : UInt8) : Bool := b == 0x09 || b == 0x0A || b == 0x0D

/-- The absolute URL of a text; blanks around it do not count. -/
def parse (text : Bytes) : Except ParseError Url :=
  match splitScheme? ((Bytes.trimBy (· ≤ 0x20) text).filter fun b => !isLineBreak b) with
  | none => .error .relativeWithoutBase
  | some (scheme, rest) =>
    if scheme = file then parseFile rest
    else if isSpecial scheme then parseAuthority scheme (rest.dropWhile (isSeparator true))
    else parseOther scheme rest

/-! ## Writing -/

/-- The user information with its `@`, if there is any. -/
def userText (u : Url) : Bytes :=
  match u.password with
  | some p => u.username ++ [0x3A] ++ p ++ [0x40]
  | none => if u.username.isEmpty then [] else u.username ++ [0x40]

/-- The host with the port, if that is not the default one. -/
def hostPort (u : Url) : Bytes :=
  ((u.host.map Host.render).getD []) ++
  (match u.port with | none => [] | some p => 0x3A :: Bytes.ofString (toString p))

/-- The path with the query. -/
def pathAndQuery (u : Url) : Bytes :=
  u.path ++ (match u.query with | none => [] | some q => 0x3F :: q)

/-- The text of a URL. -/
def render (u : Url) : Bytes :=
  let authority :=
    if u.host.isSome || u.scheme == file then [0x2F, 0x2F] ++ u.userText ++ u.hostPort
    else if u.path.take 2 = [0x2F, 0x2F] then [0x2F, 0x2E]
    else []
  u.scheme ++ [0x3A] ++ authority ++ u.pathAndQuery ++
  (match u.fragment with | none => [] | some f => 0x23 :: f)

/-- The text of a URL as a string. -/
def toText (u : Url) : String := Bytes.toLatin u.render

/-! ## Parts -/

/-- The text of a host that is not empty. -/
def hostText? (u : Url) : Option Bytes :=
  (u.host.map Host.render).filter fun h => !h.isEmpty

/-- Whether the path is text that no reference is resolved against. -/
def isOpaque (u : Url) : Bool := u.host.isNone && u.scheme != file && u.path.head? != some 0x2F

/-- Puts in a path by its text. -/
def setPath (u : Url) (text : Bytes) : Url :=
  let text := text.filter fun b => !isLineBreak b
  if u.isOpaque then
    match text with
    | 0x2F :: rest => { u with path := Bytes.ofString "%2F" ++ encode controlSet rest }
    | _ => { u with path := encode controlSet text }
  else { u with path := resolve (isSpecial u.scheme) text }

/-- Puts in a query by its text, or takes it away. -/
def setQuery (u : Url) (text : Option Bytes) : Url :=
  { u with query := text.map fun q =>
      encode (querySet (isSpecial u.scheme)) (q.filter fun b => !isLineBreak b) }

/-- Whether the scheme is `http` or `https` and there is a host. -/
def isWeb (u : Url) : Bool := (u.scheme == http || u.scheme == https) && u.hostText?.isSome

end Url

end Gatehouse
