import Gatehouse.Exchange.Message

/-!
# Requests on their way to others

An outgoing request is handed to a client, which reaches a backend, or to a handler that is mounted
at a path. Either replies in its own time, and what it has received is a sighting.
-/

namespace Gatehouse

/-- A request that is handed on. -/
structure Outgoing where
  method : Bytes
  target : Http.Target
  headers : Http.Headers := []
  body : Body := .empty
  deriving Repr, Inhabited

/-- What the receiver of a request has seen of it. -/
structure Sighting where
  method : Bytes
  target : Http.Target
  headers : Http.Headers
  declared : Option Nat
  /-- The body or why it could not be read, unless it was ignored. -/
  body : Option (Except Error Bytes)

/-- A reply to a request. -/
inductive Reply
  | response (r : Response)
  /-- The receiver broke down. -/
  | panicked

/-- Something that requests are handed to: given an instant and a limit it replies, fails or is given
up, and may have seen the request by then. -/
abbrev Receiver := Outgoing → Instant → Option Instant →
  Waited (Except Error Reply) × Option Sighting

namespace Outgoing

/-- The sighting of a request with its body, or with the body ignored. -/
def sighting (o : Outgoing) (body : Option (Except Error Bytes)) : Sighting where
  method := o.method
  target := o.target
  headers := o.headers
  declared := o.body.length
  body := body

end Outgoing

/-- How a receiver behaves towards a request: it reads the body, waits, and then replies. -/
structure Script where
  ignoresBody : Bool := false
  /-- Whether it goes on when the body cannot be read. -/
  toleratesBody : Bool := false
  delay : Duration := 0
  stalls : Bool := false
  reply : Except Error Reply := .ok (.response {})

namespace Script

/-- Waits and replies. -/
def answer (s : Script) (now : Instant) (limit : Option Instant) : Waited (Except Error Reply) :=
  match pause now limit (if s.stalls then none else some s.delay) with
  | .givenUp => .givenUp
  | .done now () => .done now s.reply

/-- The receiver that follows a script. -/
def receiver (s : Script) : Receiver := fun o now limit =>
  if s.ignoresBody then (s.answer now limit, some (o.sighting none))
  else match (o.body.readAll now limit).1 with
    | .givenUp => (.givenUp, none)
    | .done now read =>
      let seen := some (o.sighting (some read))
      match read with
      | .error e => if s.toleratesBody then (s.answer now limit, seen) else (.done now (.error e), seen)
      | .ok _ => (s.answer now limit, seen)

end Script

end Gatehouse
