import Gatehouse.Breaker.Basic

/-!
# Calls under a breaker, step by step

A call under a breaker asks to be let through when it is polled first. From then on it holds a ticket,
which owes the breaker one report: the report is made where the call ends, or else where the ticket
is let go of, as when the call is dropped or judging its outcome panics. A report may panic itself:
that takes the place of what the caller would have got, or ends the process where a panic is on its
way already. Between two steps, and while the call itself runs, others may do anything to the breaker.
-/

namespace Gatehouse

namespace Breaker

/-- What a call does when it is polled. -/
inductive Polled (α : Type)
  | pending
  | value (a : α)
  | error (e : Error)
  | panicked (panic : Panic)

/-- How the outcome of a call is judged. Either part may panic. -/
structure Judge (α : Type) where
  /-- The failure that a value stands for, if any. -/
  classify : α → Except Panic (Option Error)
  /-- Whether an error counts as a success. -/
  forgives : Error → Except Panic Bool

/-- Whether a value counts as a success. -/
def Judge.value {α : Type} (judge : Judge α) (a : α) : Except Panic Bool :=
  match judge.classify a with
  | .error panic => .error panic
  | .ok none => .ok true
  | .ok (some e) => judge.forgives e

/-- A report to the breaker, and what it has come to. -/
structure Report where
  generation : Nat
  success : Bool
  instant : Duration
  result : Except Panic Unit

/-- What an admitted call holds until it has reported its outcome. -/
structure Ticket where
  generation : Nat
  finished : Bool := false
  deriving DecidableEq, Repr

/-- What the caller of a guarded call gets. -/
inductive Reply (α : Type)
  | returned (result : Except Error α)
  | panicked (panic : Panic)
  /-- Nothing: a panic has met another one, which ends the process. -/
  | aborted

/-- How far a guarded call has come. -/
inductive Stage (α : Type)
  | unstarted
  | waiting (ticket : Ticket)
  | replied (reply : Reply α)
  /-- It is dropped, and whoever drops it gets a panic of that. -/
  | dropped (broken : Except Panic Unit)

/-- A guarded call with its breaker. -/
structure GuardedCall (α : Type) where
  breaker : Breaker
  stage : Stage α := .unstarted
  /-- The generation that has admitted the call, or why none has. -/
  admission : Option (Except Error Nat) := none
  /-- How often the call itself has been polled. -/
  polls : Nat := 0
  /-- All that has been reported to the breaker for this call. -/
  reports : List Report := []

/-- What happens to a guarded call or to its breaker. -/
inductive Event
  /-- It is polled. While the call itself runs others change the breaker, and time passes. -/
  | poll (now : Duration) (meanwhile : Breaker → Breaker) (later : Duration)
  | drop (now : Duration)
  | others (change : Breaker → Breaker)

namespace GuardedCall

variable {α : Type} (p : BreakerPolicy) (judge : Judge α) (call : Nat → Polled α)

/-- Reports an outcome for a ticket, unless one is reported already. -/
def finish (g : GuardedCall α) (t : Ticket) (success : Bool) (now : Duration) :
    Except Panic Unit × Ticket × GuardedCall α :=
  if t.finished then (.ok (), t, g)
  else
    let (result, breaker) := settle p g.breaker t.generation success now
    (result, { t with finished := true },
      { g with breaker, reports := g.reports ++ [⟨t.generation, success, now, result⟩] })

/-- Lets go of a ticket, which reports a failure if no outcome is reported yet. -/
def release (g : GuardedCall α) (t : Ticket) (now : Duration) : Except Panic Unit × GuardedCall α :=
  let (reported, _, g) := finish p g t false now
  (reported, g)

/-- Unwinds with a panic, which lets go of the ticket. -/
def unwind (g : GuardedCall α) (t : Ticket) (now : Duration) (panic : Panic) : GuardedCall α :=
  match release p g t now with
  | (.ok (), g) => { g with stage := .replied (.panicked panic) }
  | (.error _, g) => { g with stage := .replied .aborted }

/-- Reports a verdict, lets go of the ticket and replies. Where judging has panicked there is no
verdict to report. -/
def conclude (g : GuardedCall α) (t : Ticket) (now : Duration) (verdict : Except Panic Bool)
    (reply : Reply α) : GuardedCall α :=
  match verdict with
  | .error panic => unwind p g t now panic
  | .ok success =>
    match finish p g t success now with
    | (.error panic, t, g) => unwind p g t now panic
    | (.ok (), t, g) =>
      match release p g t now with
      | (.ok (), g) => { g with stage := .replied reply }
      | (.error panic, g) => { g with stage := .replied (.panicked panic) }

/-- Polls a call that is admitted. -/
def proceed (g : GuardedCall α) (t : Ticket) (meanwhile : Breaker → Breaker) (later : Duration) :
    GuardedCall α :=
  let polled := call g.polls
  let g := { g with breaker := meanwhile g.breaker, polls := g.polls + 1 }
  match polled with
  | .pending => { g with stage := .waiting t }
  | .value a => conclude p g t later (judge.value a) (.returned (.ok a))
  | .error e => conclude p g t later (judge.forgives e) (.returned (.error e))
  | .panicked panic => conclude p g t later (.ok false) (.panicked panic)

/-- What one event does. A call that is over is never polled again. -/
def step (g : GuardedCall α) : Event → GuardedCall α
  | .poll now meanwhile later =>
    match g.stage with
    | .unstarted =>
      match enter p g.breaker now with
      | (.error panic, b) => { g with breaker := b, stage := .replied (.panicked panic) }
      | (.ok (.error e), b) =>
        { g with breaker := b, admission := some (.error e), stage := .replied (.returned (.error e)) }
      | (.ok (.ok generation), b) =>
        proceed p judge call { g with breaker := b, admission := some (.ok generation) }
          { generation } meanwhile later
    | .waiting t => proceed p judge call g t meanwhile later
    | .replied _ | .dropped _ => g
  | .drop now =>
    match g.stage with
    | .unstarted => { g with stage := .dropped (.ok ()) }
    | .waiting t =>
      let (reported, g) := release p g t now
      { g with stage := .dropped reported }
    | .replied _ | .dropped _ => g
  | .others change => { g with breaker := change g.breaker }

/-- What a sequence of events does. -/
def run (g : GuardedCall α) (events : List Event) : GuardedCall α :=
  events.foldl (step p judge call) g

end GuardedCall

end Breaker

end Gatehouse
