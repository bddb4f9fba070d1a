import Gatehouse.Breaker.Basic
import Gatehouse.Exchange.Outgoing
import Gatehouse.Log
import Gatehouse.RateLimit.Limiter
import Gatehouse.Time.Clock

/-!
# Exchanges

An exchange is a request on its way through the gateway: the request, the response once there is
one, attributes by which filters tell each other things, and the scope that bounds how long it may
take. What outlives an exchange is the `World`.
-/

namespace Gatehouse

/-- A value that a filter leaves for others. -/
inductive Attribute
  | text (s : String)
  | number (n : Nat)
  | url (u : Url)
  deriving Repr, Inhabited

/-- Values by name. -/
abbrev Attributes := List (String × Attribute)

/-- Puts a value under a name. -/
def Attributes.put (attributes : Attributes) (name : String) (value : Attribute) : Attributes :=
  (name, value) :: attributes.filter fun (n, _) => n != name

/-- Removes the value of a name. -/
def Attributes.remove (attributes : Attributes) (name : String) : Attributes :=
  attributes.filter fun (n, _) => n != name

/-- The name of the attribute that keeps the URL from before any replacement. -/
def firstUrl : String := "GATEWAY_ORIGINAL_REQUEST_URL"

/-- How long an exchange may take: up to its deadline, and until it is cancelled. -/
structure Scope where
  deadline : Option Instant := none
  cancelAt : Option Instant := none
  deriving DecidableEq, Repr, Inhabited

namespace Scope

/-- Whether a scope is cancelled. -/
def isCancelled (s : Scope) (now : Instant) : Bool := s.cancelAt.any fun t => decide (t ≤ now)

/-- Whether the deadline has come. -/
def isExpired (s : Scope) (now : Instant) : Bool := s.deadline.any fun t => decide (t ≤ now)

/-- Cancels a scope from now on. -/
def cancel (s : Scope) (now : Instant) : Scope := { s with cancelAt := earlier s.cancelAt (some now) }

/-- Why an operation was given up at the limit of a scope: its caller is gone, it was cancelled, or
the deadline came. -/
def reason (s : Scope) (now : Instant) (gone limit : Option Instant) : Waited Error :=
  match limit with
  | none => .givenUp
  | some t =>
    if gone = some t then .givenUp
    else if s.cancelAt = some t then .done (max now t) .canceled
    else .done (max now t) .deadlineExceeded

/-- Runs an operation within a scope, up to the instant at which the caller is gone. An operation
that is ready at once wins over a deadline that has passed, but not over a cancellation. -/
def run {α σ : Type} (s : Scope) (now : Instant) (gone : Option Instant) (unstarted : σ)
    (operation : Option Instant → Waited (Except Error α) × σ) : Waited (Except Error α) × σ :=
  if s.isCancelled now then (.done now (.error .canceled), unstarted)
  else
    let limit := earlier (earlier (s.deadline.map (max now)) s.cancelAt) gone
    match operation limit with
    | (.done finish result, after) => (.done finish result, after)
    | (.givenUp, after) =>
      match s.reason now gone limit with
      | .givenUp => (.givenUp, after)
      | .done finish e => (.done finish (.error e), after)

end Scope

/-- A request on its way through the gateway. -/
structure Exchange where
  routeId : String
  /-- The URL that the route leads to. -/
  target : Url
  request : Request
  response : Option Response := none
  attributes : Attributes := []
  /-- The most that the loggers of this exchange log. -/
  logCap : Threshold := some .trace
  scope : Scope := {}
  deriving Repr, Inhabited

namespace Exchange

/-- Lets go of all that an exchange holds, and cancels what still runs for it. -/
def release (x : Exchange) (now : Instant) : Exchange :=
  { x with
    scope := x.scope.cancel now
    attributes := []
    request := { x.request with body := .empty }
    response := x.response.map fun r => { r with body := .empty } }

end Exchange

/-- A hook of a chain that has run, or the sending of the request. -/
inductive Hook
  | pre (filter : String)
  | send
  | post (filter : String)
  deriving DecidableEq, Repr, Inhabited

/-- What outlives an exchange: the clock, the timeline, the log, the buckets of the limiters and the
breakers of the routes. -/
structure World where
  clock : Clock
  /-- Whether the clock runs with the timeline; one that is moved by hand stands still meanwhile. -/
  clockRuns : Bool := false
  now : Instant := 0
  /-- When the caller of the gateway is gone. -/
  gone : Option Instant := none
  /-- When all exchanges are cancelled. -/
  abortAt : Option Instant := none
  threshold : Threshold := some .trace
  log : List Event := []
  limiters : List (Nat × Limiter Float) := []
  breakers : List (String × Breaker) := []
  /-- What backends have received of requests. -/
  received : List Sighting := []
  /-- What mounted handlers have received of requests. -/
  mounted : List Sighting := []
  hooks : List Hook := []
  journal : List String := []
  deriving Inhabited

namespace World

/-- The world at a later point of the timeline. -/
def moveTo (w : World) (now : Instant) : World :=
  { w with now, clock := if w.clockRuns then w.clock.advance (now - w.now) else w.clock }

@[simp] theorem now_moveTo (w : World) (t : Instant) : (w.moveTo t).now = t := rfl
@[simp] theorem gone_moveTo (w : World) (t : Instant) : (w.moveTo t).gone = w.gone := rfl
@[simp] theorem hooks_moveTo (w : World) (t : Instant) : (w.moveTo t).hooks = w.hooks := rfl
@[simp] theorem breakers_moveTo (w : World) (t : Instant) :
    (w.moveTo t).breakers = w.breakers := rfl

/-- Logs an event, if the threshold lets it through. -/
def emit (w : World) (e : Event) : World :=
  if w.threshold.allows e.level then { w with log := w.log ++ [e] } else w

/-- Notes that a hook runs. -/
def note (w : World) (h : Hook) : World := { w with hooks := w.hooks ++ [h] }

/-- The limiter at a place, a new one if it has not been used. -/
def limiter (w : World) (place : Nat) (rate : Float) (burst : Nat) : Limiter Float :=
  (w.limiters.lookup place).getD { rate, burst }

/-- Keeps the limiter at a place. -/
def keepLimiter (w : World) (place : Nat) (l : Limiter Float) : World :=
  { w with limiters := (place, l) :: w.limiters.filter fun (p, _) => p != place }

/-- The breaker of a route, which is as it has begun until something is done to it. -/
def breaker (w : World) (begun : Breaker) (route : String) : Breaker :=
  (w.breakers.lookup route).getD begun

/-- Keeps the breaker of a route. -/
def keepBreaker (w : World) (route : String) (b : Breaker) : World :=
  { w with breakers := (route, b) :: w.breakers.filter fun (r, _) => r != route }

end World

end Gatehouse
