import Gatehouse.Scenario.Fault
import Gatehouse.Scenario.Input

/-!
# Breakers in a scenario

A breaker on a clock that is moved by hand, with calls that were let through and have yet to end.
-/

namespace Gatehouse.Scenario

/-- A breaker with the generations that have let its calls through, by the numbers of the calls. -/
structure Guarded where
  breaker : Breaker
  now : Duration := 0
  calls : List (Nat × Nat) := []
  /-- Whether something has panicked that nobody catches. -/
  broken : Bool := false

namespace Guarded

variable (p : BreakerPolicy)

/-- Ends the call of a number, if there is one. -/
def settle (s : Guarded) (id : Nat) (fate : Breaker.CallFate Nat) : Except Panic Unit × Guarded :=
  match s.calls.lookup id with
  | none => (.ok (), s)
  | some generation =>
    let (reported, breaker) := s.breaker.settle p generation (fate.succeeds p) s.now
    (reported, { s with breaker, calls := s.calls.filter (·.1 != id) })

/-- The scenario behind an operation of the breaker that nobody guards. -/
def unguarded (s : Guarded) (result : Except Panic Unit × Breaker) : Guarded :=
  { s with breaker := result.2, broken := !result.1.isOk }

/-- What one step does, with what it shows. -/
def step (classify : Bool) (s : Guarded) (op : Json.Value) : Json.Value × Guarded :=
  let id := getNat op "id"
  let fate := fateIn classify (get op "outcome")
  match getStr op "do" with
  | "advance" => (.null, { s with now := s.now + (durIn op).getD 0 })
  | "state" =>
    let s := s.unguarded (s.breaker.refresh p s.now)
    (str s.breaker.state.name, s)
  | "metrics" =>
    let s := s.unguarded (s.breaker.refresh p s.now)
    (metricsOut s.breaker, s)
  | "reset" => (.null, s.unguarded (s.breaker.reset p s.now))
  | "call" =>
    match s.breaker.execute p s.now () fun _ => (s.now, fate, ()) with
    | (.error panic, breaker, _) => (fateOut (.error panic), { s with breaker })
    | (.ok (.error e), breaker, _) => (errOut e, { s with breaker })
    | (.ok (.ok fate), breaker, _) => (fateOut (.ok fate), { s with breaker })
  | "start" =>
    match s.breaker.enter p s.now with
    | (.error _, breaker) => (panicked, { s with breaker })
    | (.ok (.error e), breaker) => (errOut e, { s with breaker })
    | (.ok (.ok generation), breaker) =>
      (str "pending", { s with breaker, calls := (id, generation) :: s.calls })
  | "finish" =>
    let (reported, after) := s.settle p id fate
    (if (s.calls.lookup id).isSome then fateOut (fate.delivered reported) else .null, after)
  | "drop" =>
    let (reported, after) := s.settle p id .dropped
    (.null, { after with broken := !reported.isOk })
  | _ => (str (s.breaker.inspect p), s)

end Guarded

end Gatehouse.Scenario
