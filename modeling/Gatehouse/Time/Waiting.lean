import Gatehouse.Time.Duration

/-!
# Waiting

Operations that may have to wait run on a timeline of their own. Each is given the instant at which
it starts and the instant at which it is given up, and ends at an instant with a value, or is given
up.
-/

namespace Gatehouse

/-- A point on the timeline, in nanoseconds. -/
abbrev Instant := Nat

/-- The first point in nanoseconds whose seconds do not fit a signed 64-bit word. -/
def Instant.limit : Nat := Nat.pow 2 63 * 1000000000

/-- Whether a point is on the timeline. -/
def Instant.fits (t : Instant) : Bool := t < limit

/-- How an operation that may have to wait ends. -/
inductive Waited (α : Type u)
  | done (finish : Instant) (value : α)
  | givenUp
  deriving Repr

/-- The value of an operation that was not given up. -/
def Waited.value? {α : Type u} : Waited α → Option α
  | .done _ value => some value
  | .givenUp => none

/-- The earlier of two instants, either of which may never come. -/
def earlier : Option Instant → Option Instant → Option Instant
  | none, b => b
  | a, none => a
  | some a, some b => some (min a b)

/-- Whether an instant comes before one that may never come. -/
def comesBefore (a : Instant) : Option Instant → Bool
  | none => true
  | some b => a < b

/-- Waits for a duration, or for ever. -/
def pause (now : Instant) (limit : Option Instant) (d : Option Duration) : Waited Unit :=
  match d with
  | none => .givenUp
  | some d =>
    if d = 0 then .done now ()
    else if comesBefore (now + d) limit then .done (now + d) () else .givenUp

end Gatehouse
