import Gatehouse.Bytes

/-!
# Pipes

A pipe carries bytes one way and holds a limited number of them. A pair of pipes is a connection
within the process, each end of which reads from one and writes to the other.
-/

namespace Gatehouse

/-- How an attempt on a connection ends that does not wait: with a result, or not yet. -/
abbrev Attempt (α : Type) := Option α

/-- Why a connection fails. -/
inductive ConnectionFault
  | broken
  | readTimeout
  | writeTimeout
  deriving DecidableEq, Repr, Inhabited

/-- The wording of a fault. -/
def ConnectionFault.message : ConnectionFault → String
  | .broken => "broken pipe"
  | .readTimeout => "connection idle timeout"
  | .writeTimeout => "write timeout"

/-- A pipe. -/
structure Pipe where
  capacity : Nat
  content : Bytes := []
  /-- Whether nothing more is written. -/
  ended : Bool := false
  /-- Whether nobody reads any more. -/
  abandoned : Bool := false
  deriving DecidableEq, Repr, Inhabited

namespace Pipe

/-- Takes at most `size` bytes out; none if the pipe has ended. -/
def read (p : Pipe) (size : Nat) : Attempt Bytes × Pipe :=
  if size = 0 then (some [], p)
  else if p.content.isEmpty then (if p.ended then some [] else none, p)
  else (some (p.content.take size), { p with content := p.content.drop size })

/-- Puts as many bytes in as there is room for, and tells how many. -/
def write (p : Pipe) (bytes : Bytes) : Attempt (Except ConnectionFault Nat) × Pipe :=
  if p.ended || p.abandoned then (some (.error .broken), p)
  else if p.capacity ≤ p.content.length then (none, p)
  else
    let taken := bytes.take (p.capacity - p.content.length)
    (some (.ok taken.length), { p with content := p.content ++ taken })

end Pipe

end Gatehouse
