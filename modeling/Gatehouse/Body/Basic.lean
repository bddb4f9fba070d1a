import Gatehouse.Body.Source
import Gatehouse.Error

/-!
# Bodies

A body is read once from its source, unless it is captured: then its bytes are kept and can be read
in any number of cycles. `forward` hands what is left to the next hop.
-/

namespace Gatehouse

/-- The body of a request or a response. -/
structure Body where
  source : Option Source
  /-- Bytes that have come from the source and have not been read. -/
  pending : Bytes := []
  captured : Option Bytes := none
  /-- How many captured bytes the present cycle has read. -/
  cursor : Nat := 0
  closed : Bool := false
  /-- The length that is declared. -/
  length : Option Nat := none
  deriving DecidableEq, Repr, Inhabited

namespace Body

/-- The body of a source. -/
def ofSource (source : Source) (length : Option Nat) : Body := { source := some source, length }

/-- The body without bytes. -/
def empty : Body := ofSource (.ofBytes []) (some 0)

/-- The body of bytes that are there already. -/
def ofBytes (bytes : Bytes) : Body := ofSource (.ofBytes bytes) (some bytes.length)

/-- Whether the declared length is zero. -/
def isEmpty (b : Body) : Bool := b.length == some 0

/-- Whether nothing is left of a body whose bytes are not kept. -/
def isEndStream (b : Body) : Bool :=
  match b.captured with
  | some bytes => bytes.isEmpty
  | none => b.source.isNone && b.pending.isEmpty

/-- The number of bytes that the body announces: exactly so many, or any number. -/
def sizeHint (b : Body) : Option Nat :=
  match b.captured with
  | some bytes => some (bytes.length - b.cursor)
  | none => if b.pending.isEmpty then b.length else none

/-- The next bytes of a body: none at the end of a cycle. -/
def next (b : Body) (now : Instant) (limit : Option Instant) :
    Waited (Option (Except String Bytes)) × Body :=
  match b.captured with
  | some bytes =>
    if bytes.length ≤ b.cursor then (.done now none, { b with cursor := 0 })
    else (.done now (some (.ok (bytes.drop b.cursor))), { b with cursor := bytes.length })
  | none =>
    if !b.pending.isEmpty then (.done now (some (.ok b.pending)), { b with pending := [] })
    else match b.source with
      | none => (.done now none, b)
      | some source => match source.nextData now limit with
        | .givenUp => (.givenUp, b)
        | .done now (none, _) => (.done now none, { b with source := none })
        | .done now (some chunk, rest) => (.done now (some chunk), { b with source := some rest })

/-- Reads at most `size` bytes; none at the end of a cycle. -/
def read (b : Body) (size : Nat) (now : Instant) (limit : Option Instant) :
    Waited (Except Error Bytes) × Body :=
  if size = 0 then (.done now (.ok []), b)
  else match b.captured with
    | some bytes =>
      let left := bytes.drop b.cursor
      if left.isEmpty then (.done now (.ok []), { b with cursor := 0 })
      else
        let taken := left.take size
        (.done now (.ok taken), { b with cursor := b.cursor + taken.length })
    | none => match b.next now limit with
      | (.givenUp, b) => (.givenUp, b)
      | (.done now none, b) => (.done now (.ok []), b)
      | (.done now (some (.error reason)), b) => (.done now (.error (.body reason)), b)
      | (.done now (some (.ok bytes)), b) =>
        (.done now (.ok (bytes.take size)), { b with pending := bytes.drop size })

/-- Reads what is left of a cycle. A failure loses what was read before it. -/
def readAll (b : Body) (now : Instant) (limit : Option Instant) :
    Waited (Except Error Bytes) × Body :=
  match b.captured with
  | some bytes => (.done now (.ok (bytes.drop b.cursor)), { b with cursor := 0 })
  | none => match b.source with
    | none => (.done now (.ok b.pending), { b with pending := [] })
    | some source =>
      let started := { b with pending := [] }
      match source.collect now limit b.pending with
      | .givenUp => (.givenUp, started)
      | .done now (.ok bytes, _) => (.done now (.ok bytes), { started with source := none })
      | .done now (.error reason, rest) =>
        (.done now (.error (.body reason)), { started with source := some rest })

/-- Keeps what is left of the source. When that fails or is given up, the source is gone. -/
def capture (b : Body) (now : Instant) (limit : Option Instant) :
    Waited (Except Error Unit) × Body :=
  match b.captured, b.source with
  | some _, _ => (.done now (.ok ()), b)
  | none, none => (.done now (.ok ()), b)
  | none, some source =>
    let emptied := { b with source := none, pending := [] }
    match source.collect now limit b.pending with
    | .givenUp => (.givenUp, emptied)
    | .done now (.error reason, _) => (.done now (.error (.body reason)), emptied)
    | .done now (.ok bytes, _) =>
      (.done now (.ok ()), { emptied with captured := some bytes, cursor := 0 })

/-- Lets go of the source; captured bytes are kept. -/
def close (b : Body) : Body :=
  if b.closed then b else { b with closed := true, source := none, pending := [] }

/-- A body for the next hop: all captured bytes, or what is left, which this body then lacks. -/
def forward (b : Body) : Body × Body :=
  match b.captured with
  | some bytes => (ofBytes bytes, b)
  | none =>
    let length := if b.source.isNone && b.pending.isEmpty then some 0 else b.length
    ({ source := b.source, pending := b.pending, length }, { b with source := none, pending := [] })

end Body

end Gatehouse
