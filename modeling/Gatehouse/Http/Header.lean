import Gatehouse.Bytes

/-!
# Header fields

Header fields are a list of names and values in order. A name is a token in lower case and a value
is bytes; `Headers.values` is the view of them by name, and `append`, `set` and `remove` change one
name's values and leave the others alone.
-/

namespace Gatehouse.Http

/-- Whether a byte may stand in a token. -/
def isTokenByte (b : UInt8) : Bool :=
  Bytes.isAlpha b || Bytes.isDigit b ||
  (Bytes.ofString "!#$%&'*+-.^_\u0060|~").contains b

/-- Whether bytes are a token. -/
def isToken (bs : Bytes) : Bool := !bs.isEmpty && bs.all isTokenByte

/-- A header name in lower case. -/
structure HeaderName where
  text : Bytes
  deriving DecidableEq, Repr, Inhabited

/-- The longest header name. -/
def HeaderName.maxLength : Nat := 65535

/-- The name that bytes spell in any case. -/
def HeaderName.ofBytes? (bs : Bytes) : Option HeaderName :=
  if isToken bs && bs.length ≤ maxLength then some ⟨bs.map Bytes.toLower⟩ else none

/-- The name that a text spells in any case. -/
def HeaderName.ofString? (s : String) : Option HeaderName := ofBytes? (Bytes.ofString s)

/-- A name that is written out in lower case. -/
def HeaderName.literal (s : String) : HeaderName := ⟨Bytes.ofString s⟩

/-- Whether a byte may stand in a header value. -/
def isValueByte (b : UInt8) : Bool := (0x20 ≤ b && b != 0x7F) || b == 0x09

/-- Whether a byte of a header value is text: visible ASCII, a space or a tab. -/
def isTextByte (b : UInt8) : Bool := (0x20 ≤ b && b < 0x7F) || b == 0x09

/-- A header value when it is all text. -/
def text? (value : Bytes) : Option Bytes := if value.all isTextByte then some value else none

/-- The blanks of header values. -/
def isBlank (b : UInt8) : Bool := b == 0x20 || b == 0x09

/-- Drops blanks at both ends. -/
def trim (value : Bytes) : Bytes := Bytes.trimBy isBlank value

/-- A name with one of its values. -/
structure Field where
  name : HeaderName
  value : Bytes
  deriving DecidableEq, Repr, Inhabited

/-- Header fields in order. -/
abbrev Headers := List Field

namespace Headers

/-- The values of a name in order. -/
def values (hs : Headers) (name : HeaderName) : List Bytes :=
  hs.filterMap fun f => if f.name = name then some f.value else none

/-- The first value of a name. -/
def first? (hs : Headers) (name : HeaderName) : Option Bytes := (hs.values name).head?

/-- The first value of a name when it is all text. -/
def firstText? (hs : Headers) (name : HeaderName) : Option Bytes := (hs.first? name).bind text?

/-- Whether a name has a value. -/
def contains (hs : Headers) (name : HeaderName) : Bool := hs.any fun f => f.name = name

/-- Adds a value behind the values of a name. -/
def append (hs : Headers) (name : HeaderName) (value : Bytes) : Headers := hs ++ [⟨name, value⟩]

/-- Removes the values of a name. -/
def remove (hs : Headers) (name : HeaderName) : Headers := hs.filter fun f => f.name ≠ name

/-- Makes a value the only one of a name. -/
def set (hs : Headers) (name : HeaderName) (value : Bytes) : Headers :=
  (hs.remove name).append name value

/-- The fields sorted by name, the values of a name in their order. -/
def sorted (hs : Headers) : Headers :=
  hs.mergeSort fun a b => decide (a.name.text ≤ b.name.text)

end Headers

/-! ## Names with a meaning for the gateway -/

/-- The header `host`. -/
def host : HeaderName := .literal "host"

/-- The header `cookie`. -/
def cookie : HeaderName := .literal "cookie"

/-- The header `connection`. -/
def connection : HeaderName := .literal "connection"

/-- The header `content-length`. -/
def contentLength : HeaderName := .literal "content-length"

/-- The header `content-type`. -/
def contentType : HeaderName := .literal "content-type"

/-- The header that carries the identity of a request. -/
def requestId : HeaderName := .literal "x-request-id"

/-- The headers of one hop, which are never passed on. -/
def hopByHop : List HeaderName :=
  [connection, .literal "keep-alive", .literal "proxy-connection", .literal "proxy-authenticate",
   .literal "proxy-authorization", .literal "te", .literal "trailer",
   .literal "transfer-encoding", .literal "upgrade"]

/-- The names that the values of `connection` list. -/
def listedNames (hs : Headers) : List HeaderName :=
  (hs.values connection).filterMap text? |>.flatMap fun value =>
    (Bytes.splitOn 0x2C value).filterMap fun name => HeaderName.ofBytes? (trim name)

/-- Removes the headers of one hop, with those that `connection` lists. -/
def stripHopByHop (hs : Headers) : Headers :=
  (listedNames hs ++ hopByHop).foldl Headers.remove hs

end Gatehouse.Http
