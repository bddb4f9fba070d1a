import Gatehouse.Body.Basic
import Gatehouse.Body.Pool
import Gatehouse.Breaker.Basic
import Gatehouse.Double.Shortest
import Gatehouse.RateLimit.Limiter
import Gatehouse.Registry

/-!
# States in one line

For diagnosis a state is shown as its name with its fields in braces.
-/

namespace Gatehouse.Inspect

/-- A name with fields in braces. -/
def record (name : String) (fields : List (String × String)) : String :=
  let inner := ", ".intercalate (fields.map fun (k, v) => s!"{k}: {v}")
  name ++ " \x7b " ++ inner ++ " \x7d"

/-- How a character stands between quotes. -/
def escaped (c : Char) : List Char :=
  if c == '"' then ['\\', '"']
  else if c == '\\' then ['\\', '\\']
  else if c == '\n' then ['\\', 'n']
  else if c == '\r' then ['\\', 'r']
  else if c == '\t' then ['\\', 't']
  else if c == '\x00' then ['\\', '0']
  else if c.toNat < 0x20 || c.toNat == 0x7F then
    ['\\', 'u', '\x7b'] ++ Nat.toDigits 16 c.toNat ++ ['\x7d']
  else [c]

/-- A text between quotes. -/
def text (s : String) : String := "\"" ++ String.ofList (s.toList.flatMap escaped) ++ "\""

/-- A value that may be absent. -/
def optional {α : Type} (shown : α → String) : Option α → String
  | none => "None"
  | some a => "Some(" ++ shown a ++ ")"

/-- Values between brackets. -/
def list (items : List String) : String := "[" ++ ", ".intercalate items ++ "]"

/-- A truth value. -/
def bool (b : Bool) : String := if b then "true" else "false"

/-- A double has a point from 10^-4 up to below 10^16 and an exponent elsewhere. -/
def doubleFormat : Double.DecimalFormat := ⟨-3, 16⟩

/-- A float in the fewest digits. -/
def float (x : Float) : String :=
  let d := Double.ofFloat x
  if d.isFinite then d.render doubleFormat
  else if x.isNaN then "NaN"
  else if d.isNegative then "-inf" else "inf"

/-- The digits of a fraction of so many places, behind their point and without the zeros at the
end. -/
def fraction (n places : Nat) : String :=
  let digits := Nat.toDigits 10 n
  let padded := List.replicate (places - digits.length) '0' ++ digits
  let kept := (padded.reverse.dropWhile (· == '0')).reverse
  if kept.isEmpty then "" else "." ++ String.ofList kept

/-- A duration in its largest unit up to seconds, with a fraction where there is one. -/
def duration (d : Duration) : String :=
  if 1000000000 ≤ d then toString d.seconds ++ fraction d.subsecond 9 ++ "s"
  else if 1000000 ≤ d then toString (d / 1000000) ++ fraction (d % 1000000) 6 ++ "ms"
  else if 1000 ≤ d then toString (d / 1000) ++ fraction (d % 1000) 3 ++ "µs"
  else toString d ++ "ns"

end Gatehouse.Inspect

namespace Gatehouse

open Inspect

/-- A body in one line. -/
def Body.inspect (b : Body) : String :=
  record "ReplayableBody" [("len", optional toString b.length),
    ("captured", optional (fun bytes => toString bytes.length) b.captured),
    ("closed", bool b.closed)]

/-- A buffer in one line. -/
def Buffer.inspect (b : Buffer) : String :=
  record "PooledBuffer" [("len", toString b.content.length), ("capacity", toString b.capacity)]

/-- A pool in one line. -/
def BufferPool.inspect (p : BufferPool) : String :=
  record "BufferPool" [("idle", toString p.idle.length),
    ("initial_capacity", toString p.initial), ("max_capacity", toString p.maximum)]

/-- A bucket in one line. -/
def TokenBucket.inspect (b : TokenBucket Float) : String :=
  record "TokenBucket" [("rate", float b.rate), ("burst", float b.burst), ("tokens", float b.tokens)]

/-- A limiter in one line. -/
def Limiter.inspect (l : Limiter Float) : String :=
  record "InMemoryLimiter" [("rate", float l.rate), ("burst", toString l.burst),
    ("buckets", toString l.size)]

/-- A registry in one line. -/
def Registry.inspect {α : Type u} (r : Registry α) : String :=
  record "Registry" [("kind", text r.kind), ("builders", list (r.names.map text))]

/-- Counts in one line. -/
def Counts.inspect (c : Counts) : String :=
  record "Counts" [("requests", toString c.requests),
    ("total_successes", toString c.totalSuccesses), ("total_failures", toString c.totalFailures),
    ("consecutive_successes", toString c.consecutiveSuccesses),
    ("consecutive_failures", toString c.consecutiveFailures)]

/-- The constructor-like name of a state. -/
def BreakerState.inspect : BreakerState → String
  | .closed => "Closed"
  | .opened => "Open"
  | .halfOpen => "HalfOpen"

/-- A breaker in one line. -/
def Breaker.inspect (p : BreakerPolicy) (b : Breaker) : String :=
  record "CircuitBreaker" [("name", text p.name), ("max_requests", toString p.probes),
    ("interval", duration p.interval), ("timeout", duration p.openTimeout),
    ("inner", record "Inner" [("state", b.state.inspect), ("generation", toString b.generation),
      ("counts", b.counts.inspect), ("expiry", optional (fun t => s!"Instant({duration t})") b.expiry),
      ("total_requests", toString b.totalRequests)])]

/-- A breaker policy in one line; functions are not shown. -/
def BreakerPolicy.inspect (p : BreakerPolicy) : String :=
  let function (present : Bool) : String := if present then "Some(" ++ text "<fn>" ++ ")" else "None"
  record "CircuitBreakerConfig" [("name", text p.name), ("max_requests", toString p.maxRequests),
    ("interval", duration p.interval), ("timeout", duration p.timeout),
    ("ready_to_trip", function p.trips.isSome), ("is_successful", function p.forgives.isSome)]

end Gatehouse
