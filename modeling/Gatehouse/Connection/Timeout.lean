import Gatehouse.Connection.Pipe
import Gatehouse.Time.Waiting

/-!
# Timeouts of a connection

Reads and writes of a connection may be kept waiting for a limited time only. A timer starts with the
first attempt that has to wait and is forgotten with one that has not. While requests are in work, the
timer of reads may stand still.
-/

namespace Gatehouse

/-- The limits of a connection with their timers. -/
structure ConnectionTimer where
  readLimit : Option Duration := none
  writeLimit : Option Duration := none
  /-- Whether reads may wait for ever while requests are in work. -/
  pausesReads : Bool := false
  /-- How many requests are in work. -/
  active : Nat := 0
  readDue : Option Instant := none
  writeDue : Option Instant := none
  deriving DecidableEq, Repr, Inhabited

namespace ConnectionTimer

/-- Whether the timer of reads stands still. -/
def readsPaused (t : ConnectionTimer) : Bool := t.pausesReads && 0 < t.active

/-- Begins work on a request. -/
def enter (t : ConnectionTimer) : ConnectionTimer := { t with active := t.active + 1 }

/-- Ends work on a request. -/
def leave (t : ConnectionTimer) : ConnectionTimer := { t with active := t.active - 1 }

/-- Looks at a timer, which starts if it is not running: whether it is due, and when it will be. -/
def check (limit : Option Duration) (due : Option Instant) (now : Instant) : Bool × Option Instant :=
  match limit with
  | none => (false, due)
  | some limit =>
    let due := due.getD (now + limit)
    (due ≤ now, some due)

/-- An attempt to read, given what the connection has at once. -/
def tryRead {α : Type} (t : ConnectionTimer) (now : Instant) (inner : Attempt α) :
    Attempt (Except ConnectionFault α) × ConnectionTimer :=
  match inner with
  | some a => (some (.ok a), { t with readDue := none })
  | none =>
    if t.readsPaused then (none, { t with readDue := none })
    else
      let (isDue, readDue) := check t.readLimit t.readDue now
      (if isDue then some (.error .readTimeout) else none, { t with readDue })

/-- An attempt to write or to flush, given what the connection has at once. -/
def tryWrite {α : Type} (t : ConnectionTimer) (now : Instant)
    (inner : Attempt (Except ConnectionFault α)) :
    Attempt (Except ConnectionFault α) × ConnectionTimer :=
  match inner with
  | some a => (some a, { t with writeDue := none })
  | none =>
    let (isDue, writeDue) := check t.writeLimit t.writeDue now
    (if isDue then some (.error .writeTimeout) else none, { t with writeDue })

/-- Attempts again when a timer is due, if that is before the caller gives up at `until_`. -/
def await {α : Type} (attempt : ConnectionTimer → Instant → Attempt α × ConnectionTimer)
    (due : ConnectionTimer → Option Instant) (t : ConnectionTimer) (now until_ : Instant) :
    Waited α × ConnectionTimer :=
  match attempt t now with
  | (some a, t) => (.done now a, t)
  | (none, t) =>
    match due t with
    | none => (.givenUp, t)
    | some instant =>
      if instant ≤ until_ then
        match attempt t instant with
        | (some a, t) => (.done instant a, t)
        | (none, t) => (.givenUp, t)
      else (.givenUp, t)

end ConnectionTimer

/-- One end of a connection within the process, with its limits and with the bodies that are on their
way out. -/
structure Connection where
  timer : ConnectionTimer := {}
  incoming : Pipe
  outgoing : Pipe
  /-- The bodies on their way out, the last one first. -/
  tracked : List Bytes := []
  now : Instant := 0
  deriving Repr, Inhabited

namespace Connection

/-- Begins work on a request. -/
def enter (c : Connection) : Connection := { c with timer := c.timer.enter }

/-- Ends work on a request. -/
def leave (c : Connection) : Connection := { c with timer := c.timer.leave }

/-- Sends a body out: its request is in work until the body is gone. -/
def track (c : Connection) (body : Bytes) : Connection :=
  { c.enter with tracked := body :: c.tracked }

/-- Lets go of the last body. -/
def untrack (c : Connection) : Option Bytes × Connection :=
  match c.tracked with
  | [] => (none, c)
  | body :: rest => (some body, { c.leave with tracked := rest })

/-- The instant at which an operation ended. -/
def finish {α : Type} (until_ : Instant) : Waited α → Instant
  | .done finish _ => finish
  | .givenUp => until_

/-- Reads at most `size` bytes, waiting up to `until_`. -/
def read (c : Connection) (size : Nat) (until_ : Instant) :
    Waited (Except ConnectionFault Bytes) × Connection :=
  let (inner, incoming) := c.incoming.read size
  let (ended, timer) := ConnectionTimer.await (fun t now => t.tryRead now inner) (·.readDue)
    c.timer c.now until_
  (ended, { c with incoming, timer, now := finish until_ ended })

/-- Writes some of the bytes, waiting up to `until_`. -/
def write (c : Connection) (bytes : Bytes) (until_ : Instant) :
    Waited (Except ConnectionFault Nat) × Connection :=
  let (inner, outgoing) := c.outgoing.write bytes
  let (ended, timer) := ConnectionTimer.await (fun t now => t.tryWrite now inner) (·.writeDue)
    c.timer c.now until_
  (ended, { c with outgoing, timer, now := finish until_ ended })

/-- Flushes, which never has to wait. -/
def flush (c : Connection) : Connection := { c with timer := { c.timer with writeDue := none } }

/-- Ends the outgoing pipe. -/
def shutdown (c : Connection) : Connection :=
  { c with outgoing := { c.outgoing with ended := true } }

/-- The other end is closed. -/
def closePeer (c : Connection) : Connection :=
  { c with
    incoming := { c.incoming with ended := true }
    outgoing := { c.outgoing with abandoned := true } }

end Connection

end Gatehouse
