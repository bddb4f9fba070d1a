/-!
# Shutdown

A shutdown is triggered once and for all: a flag is set and one message goes to whoever listens by
then. Exchanges run on until they are aborted. Triggering and listening are each two steps, which may
interleave with those of others.
-/

namespace Gatehouse

/-- What a listener finds. -/
inductive Notice
  | signal
  | empty
  deriving DecidableEq, Repr, Inhabited

/-- The state of a shutdown. -/
structure Shutdown where
  triggered : Bool := false
  /-- How many messages have been sent. -/
  sent : Nat := 0
  /-- Whether a message waits for each listener, in the order in which they came. -/
  waiting : List Bool := []
  /-- Whether all exchanges are cancelled. -/
  aborted : Bool := false
  /-- Whether each exchange was cancelled by itself. -/
  exchanges : List Bool := []
  deriving DecidableEq, Repr, Inhabited

namespace Shutdown

/-- Sets the flag, and tells whether it was set before: the first step of triggering. -/
def raise (s : Shutdown) : Bool × Shutdown := (s.triggered, { s with triggered := true })

/-- Sends a message to all who listen: the second step of triggering. -/
def broadcast (s : Shutdown) : Shutdown :=
  { s with sent := s.sent + 1, waiting := s.waiting.map fun _ => true }

/-- Triggers the shutdown; only the first time a message is sent. -/
def trigger (s : Shutdown) : Shutdown :=
  let (before, s) := s.raise
  if before then s else s.broadcast

/-- Begins to listen: the first step of setting up a connection. The second is to look at the flag. -/
def subscribe (s : Shutdown) : Shutdown := { s with waiting := s.waiting ++ [false] }

/-- Takes the message that waits for a listener. -/
def receive (s : Shutdown) (listener : Nat) : Notice × Shutdown :=
  if s.waiting.getD listener false then
    (.signal, { s with waiting := s.waiting.set listener false })
  else (.empty, s)

/-- Cancels all exchanges, those to come as well. -/
def abort (s : Shutdown) : Shutdown := { s with aborted := true }

/-- Begins an exchange. -/
def addExchange (s : Shutdown) : Shutdown := { s with exchanges := s.exchanges ++ [false] }

/-- Cancels one exchange. -/
def cancel (s : Shutdown) (exchange : Nat) : Shutdown :=
  { s with exchanges := s.exchanges.set exchange true }

/-- Whether each exchange is cancelled. -/
def cancelled (s : Shutdown) : List Bool := s.exchanges.map (· || s.aborted)

end Shutdown

end Gatehouse
