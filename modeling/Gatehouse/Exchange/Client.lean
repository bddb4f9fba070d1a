import Gatehouse.Exchange.Outgoing

/-!
# The client for backends

A client opens a connection to where a request goes, and hands the request on over it.
-/

namespace Gatehouse.Client

/-- Why a client gets no reply. -/
inductive Fault
  /-- No connection can be opened. -/
  | connect
  /-- A connection is open, and no reply comes over it. -/
  | exchange
  deriving DecidableEq, Repr, Inhabited

/-- The wording of a fault. -/
def Fault.message : Fault → String
  | .connect => "client error (Connect)"
  | .exchange => "client error (SendRequest)"

/-- Opens connections: what a connection to a target does with requests, or why there is none. -/
abbrev Dial := Http.Target → Except String Receiver

/-- The client that opens connections in a given way. -/
def receiver (dial : Dial) : Receiver := fun o now limit =>
  match dial o.target with
  | .error _ => (.done now (.error (.backend Fault.connect.message)), none)
  | .ok connection => connection o now limit

end Gatehouse.Client
