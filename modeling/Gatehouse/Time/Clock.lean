import Gatehouse.Time.Timestamp

/-!
# Clocks

A clock shows a monotonic time, the duration since it was started, and a civil time. Both move
together and only forward.
-/

namespace Gatehouse

/-- A clock that was started at an instant and has run for a duration. -/
structure Clock where
  start : Timestamp
  elapsed : Duration := 0
  deriving Repr, Inhabited

namespace Clock

/-- Moves a clock forward. -/
def advance (c : Clock) (d : Duration) : Clock := { c with elapsed := c.elapsed + d }

/-- The monotonic time. -/
def now (c : Clock) : Duration := c.elapsed

/-- The civil time. -/
def utc (c : Clock) : Timestamp := c.start.add c.elapsed

end Clock

end Gatehouse
