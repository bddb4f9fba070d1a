import Gatehouse.Error
import Gatehouse.Time.Waiting

/-!
# Circuit breakers

A breaker admits calls while it is closed, refuses them while it is open, and admits a few probes
while it is half open. Each stay in a state is a generation with counts of its own: a call reports
its outcome under the generation that admitted it, and a report for another generation is dropped.
An operation comes to something beside the breaker that it leaves, also where it breaks off: the end
of a generation that begins may be beyond what the time can tell.
-/

namespace Gatehouse

/-- Whether a breaker lets calls through. -/
inductive BreakerState
  | closed
  | opened
  | halfOpen
  deriving DecidableEq, Repr, Inhabited

/-- The name of a state. -/
def BreakerState.name : BreakerState → String
  | .closed => "closed"
  | .opened => "open"
  | .halfOpen => "half-open"

/-- The calls of one generation and their outcomes. -/
structure Counts where
  requests : Nat := 0
  totalSuccesses : Nat := 0
  totalFailures : Nat := 0
  consecutiveSuccesses : Nat := 0
  consecutiveFailures : Nat := 0
  deriving DecidableEq, Repr, Inhabited

namespace Counts

/-- Counts a call that is admitted. -/
def enter (c : Counts) : Counts := { c with requests := c.requests + 1 }

/-- Counts a success. -/
def succeed (c : Counts) : Counts :=
  { c with
    totalSuccesses := c.totalSuccesses + 1
    consecutiveSuccesses := c.consecutiveSuccesses + 1
    consecutiveFailures := 0 }

/-- Counts a failure. -/
def fail (c : Counts) : Counts :=
  { c with
    totalFailures := c.totalFailures + 1
    consecutiveFailures := c.consecutiveFailures + 1
    consecutiveSuccesses := 0 }

end Counts

/-- When a breaker trips and recovers. -/
structure BreakerPolicy where
  name : String
  /-- The probes that a half-open breaker admits, and the successes in a row that close it. -/
  maxRequests : Nat := 0
  /-- After how long a closed breaker forgets its counts; never if zero. -/
  interval : Duration := 0
  /-- How long a breaker stays open. -/
  timeout : Duration := 0
  /-- Whether the counts of a closed breaker trip it; by default more than five failures in a
  row do. -/
  trips : Option (Counts → Bool) := none
  /-- Whether an error counts as a success; by default none does. -/
  forgives : Option (Error → Bool) := none

namespace BreakerPolicy

/-- The probes that a half-open breaker admits: at least one. -/
def probes (p : BreakerPolicy) : Nat := max p.maxRequests 1

/-- How long a breaker stays open: a minute if that is not given. -/
def openTimeout (p : BreakerPolicy) : Duration :=
  if p.timeout = 0 then Duration.ofSeconds 60 else p.timeout

/-- Trips a closed breaker at more than so many failures in a row. -/
def consecutive (threshold : Nat) (c : Counts) : Bool := threshold < c.consecutiveFailures

/-- Whether counts trip a closed breaker. -/
def tripsAt (p : BreakerPolicy) (c : Counts) : Bool := p.trips.getD (consecutive 5) c

/-- Whether an error counts as a success. -/
def forgivesError (p : BreakerPolicy) (e : Error) : Bool := (p.forgives.getD fun _ => false) e

end BreakerPolicy

/-- The present of a breaker, with the changes of its state from the first on. -/
structure Breaker where
  state : BreakerState := .closed
  generation : Nat := 0
  counts : Counts := {}
  /-- When the generation ends by itself. -/
  expiry : Option Duration := none
  /-- The calls admitted in all generations. -/
  totalRequests : Nat := 0
  changes : List (BreakerState × BreakerState) := []
  deriving DecidableEq, Repr, Inhabited

namespace Breaker

variable (p : BreakerPolicy)

/-- When a generation that begins now ends by itself. -/
def expiryOf (state : BreakerState) (now : Duration) : Option Duration :=
  match state with
  | .closed => if p.interval = 0 then none else some (now + p.interval)
  | .opened => some (now + p.openTimeout)
  | .halfOpen => none

/-- Whether the end of a generation that begins now can be told. -/
def expiryFits (state : BreakerState) (now : Duration) : Bool :=
  (expiryOf p state now).all Instant.fits

/-- The closed breaker that begins now. -/
def start (now : Duration) : Breaker := { expiry := expiryOf p .closed now }

/-- Begins a breaker. -/
def begin_ (now : Duration) : Except Panic Breaker :=
  if expiryFits p .closed now then .ok (start p now) else .error .overflow

/-- Begins a generation of the present state. Where its end cannot be told this breaks off with the
counts cleared, and the end of the generation before stays. -/
def renew (b : Breaker) (now : Duration) : Except Panic Unit × Breaker :=
  let begun := { b with generation := b.generation + 1, counts := {} }
  if expiryFits p b.state now then (.ok (), { begun with expiry := expiryOf p b.state now })
  else (.error .overflow, begun)

/-- Goes over to another state, and reports that once its generation has begun. -/
def change (b : Breaker) (state : BreakerState) (now : Duration) : Except Panic Unit × Breaker :=
  if b.state = state then (.ok (), b)
  else match renew p { b with state } now with
    | (.error panic, begun) => (.error panic, begun)
    | (.ok (), begun) => (.ok (), { begun with changes := b.changes ++ [(b.state, state)] })

/-- Does what is due by now: a closed breaker forgets its counts, an open one becomes half open. -/
def refresh (b : Breaker) (now : Duration) : Except Panic Unit × Breaker :=
  if b.expiry.any fun expiry => decide (expiry ≤ now) then
    match b.state with
    | .closed => renew p b now
    | .opened => change p b .halfOpen now
    | .halfOpen => (.ok (), b)
  else (.ok (), b)

/-- Asks for a call to be let through: the generation that admits it, or why none does. -/
def enter (b : Breaker) (now : Duration) : Except Panic (Except Error Nat) × Breaker :=
  match refresh p b now with
  | (.error panic, b) => (.error panic, b)
  | (.ok (), b) =>
    let admitted := { b with counts := b.counts.enter, totalRequests := b.totalRequests + 1 }
    match b.state with
    | .opened => (.ok (.error (.circuitOpen p.name)), b)
    | .closed => (.ok (.ok b.generation), admitted)
    | .halfOpen =>
      if p.probes ≤ b.counts.requests then (.ok (.error (.halfOpenExhausted p.name)), b)
      else (.ok (.ok b.generation), admitted)

/-- Counts a success. -/
def succeed (b : Breaker) (now : Duration) : Except Panic Unit × Breaker :=
  match b.state with
  | .closed => (.ok (), { b with counts := b.counts.succeed })
  | .halfOpen =>
    let b := { b with counts := b.counts.succeed }
    if p.probes ≤ b.counts.consecutiveSuccesses then change p b .closed now else (.ok (), b)
  | .opened => (.ok (), b)

/-- Counts a failure. -/
def fail (b : Breaker) (now : Duration) : Except Panic Unit × Breaker :=
  match b.state with
  | .closed =>
    let b := { b with counts := b.counts.fail }
    if p.tripsAt b.counts then change p b .opened now else (.ok (), b)
  | .halfOpen => change p b .opened now
  | .opened => (.ok (), b)

/-- Reports the outcome of a call that a generation admitted. -/
def settle (b : Breaker) (generation : Nat) (success : Bool) (now : Duration) :
    Except Panic Unit × Breaker :=
  match refresh p b now with
  | (.error panic, b) => (.error panic, b)
  | (.ok (), b) =>
    if b.generation ≠ generation then (.ok (), b)
    else if success then succeed p b now
    else fail p b now

/-- Closes the breaker and forgets its counts. -/
def reset (b : Breaker) (now : Duration) : Except Panic Unit × Breaker :=
  if b.state = .closed then renew p b now else change p b .closed now

/-- What becomes of a call: its value with the error that it is classified as, its error, a panic,
or that it is dropped. -/
inductive CallFate (α : Type)
  | value (a : α) (classified : Option Error)
  | error (e : Error)
  | panicked
  | dropped

/-- Whether a call counts as a success. -/
def CallFate.succeeds {α : Type} : CallFate α → Bool
  | .value _ none => true
  | .value _ (some e) => p.forgivesError e
  | .error e => p.forgivesError e
  | .panicked => false
  | .dropped => false

/-- What the caller gets of a call: a panic of the report takes its place, unless nobody waits for it
any more. -/
def CallFate.delivered {α : Type} (fate : CallFate α) (reported : Except Panic Unit) :
    Except Panic (CallFate α) :=
  match fate with
  | .dropped => .ok .dropped
  | fate => reported.map fun _ => fate

/-- Lets a call through, if it is admitted, and reports its outcome. The call acts on a state, and
may take time: it says when it ends. -/
def execute {α σ : Type} (b : Breaker) (now : Duration) (s : σ)
    (call : σ → Duration × CallFate α × σ) :
    Except Panic (Except Error (CallFate α)) × Breaker × σ :=
  match enter p b now with
  | (.error panic, b) => (.error panic, b, s)
  | (.ok (.error e), b) => (.ok (.error e), b, s)
  | (.ok (.ok generation), b) =>
    let (finish, fate, s) := call s
    let (reported, b) := settle p b generation (fate.succeeds p) finish
    ((fate.delivered reported).map .ok, b, s)

end Breaker

end Gatehouse
