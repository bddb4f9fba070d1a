import Gatehouse.Proofs.Exchange.Course
import Mathlib.Logic.Relation

/-!
# The steps of an exchange

The gateway takes an exchange from one `Stage` to the next: a hook runs, the request is built, the
breaker is asked, the call comes to an end and is reported, a hook runs. `advance` is one such step
with what it does to the breaker of the route. Between two steps other exchanges may take theirs; an
exchange that nothing comes between goes the course that `handle` takes it (`Course.advances`).
-/

namespace Gatehouse

namespace World

theorem breaker_of_lookup {w : World} {id : String} {b : Breaker}
    (h : w.breakers.lookup id = some b) (begun : Breaker) : w.breaker begun id = b := by
  rw [breaker, h, Option.getD_some]

@[simp] theorem lookup_keepBreaker (w : World) (id : String) (b : Breaker) :
    (w.keepBreaker id b).breakers.lookup id = some b :=
  List.lookup_cons_self

theorem breaker_keepBreaker (w : World) (begun : Breaker) (id : String) (b : Breaker) :
    (w.keepBreaker id b).breaker begun id = b :=
  breaker_of_lookup (lookup_keepBreaker w id b) begun

/-- Of two breakers that are kept for a route the second stays. -/
theorem keepBreaker_keepBreaker (w : World) (id : String) (b b' : Breaker) :
    (w.keepBreaker id b).keepBreaker id b' = w.keepBreaker id b' := by
  simp [keepBreaker, List.filter_filter]

end World

namespace Filter

variable {id : String} {f : Filter}

/-- The hooks of a filter leave the breaker of a route as it is. -/
def Spares (id : String) : Filter → Prop
  | .custom _ pre post =>
    (∀ w x, (pre w x).2.1.breakers.lookup id = w.breakers.lookup id) ∧
      ∀ w x, (post w x).2.1.breakers.lookup id = w.breakers.lookup id
  | _ => True

@[simp] theorem breakers_emit (w : World) (e : Event) : (w.emit e).breakers = w.breakers := by
  rw [World.emit]
  split <;> rfl

theorem lookup_pre (h : f.Spares id) (w : World) (x : Exchange) :
    (pre f w x).2.1.breakers.lookup id = w.breakers.lookup id := by
  cases f with
  | header side name edit => cases side <;> rfl
  | pathEdit pattern replacement => rfl
  | logger level maxBody =>
    simp only [pre, logRequest]
    split
    · rfl
    · split <;> simp [finish, failWith]
  | rateLimit place rate burst key =>
    simp only [pre]
    split <;> rfl
  | custom label before after => exact h.1 w x

theorem lookup_post (h : f.Spares id) (w : World) (x : Exchange) :
    (post f w x).2.1.breakers.lookup id = w.breakers.lookup id := by
  cases f with
  | header side name edit => cases side <;> rfl
  | pathEdit pattern replacement => rfl
  | logger level maxBody =>
    simp only [post, logResponse]
    split
    · rfl
    · split
      · rfl
      · split <;> simp [finish, failWith]
  | rateLimit place rate burst key => rfl
  | custom label before after => exact h.2 w x

end Filter

namespace Gateway

open Gatehouse.Filter (Ran Fault)

/-- A call to a backend: who is sent what, from which instant on and within which scope, and when
the caller is gone. -/
structure Call where
  client : Receiver
  request : Outgoing
  scope : Scope
  begun : Instant
  gone : Option Instant

namespace Call

/-- The instant at which a call is given up. -/
def limit (c : Call) : Option Instant :=
  earlier (earlier (c.scope.deadline.map (max c.begun)) c.scope.cancelAt) c.gone

/-- How a call comes to an end within its scope. -/
def ended (c : Call) : Waited (Except Error Reply) :=
  (c.scope.run c.begun c.gone none (c.client c.request c.begun)).1

/-- Whether the client answers a call with a response within its scope. -/
def IsAnswered (c : Call) (r : Response) : Prop :=
  c.scope.isCancelled c.begun = false ∧
    ∃ now, (c.client c.request c.begun c.limit).1 = .done now (.ok (.response r))

/-- What becomes of a call. -/
def fate (c : Call) : Breaker.CallFate Response :=
  match c.ended with
  | .givenUp => .dropped
  | .done _ (.error e) => .error e
  | .done _ (.ok .panicked) => .panicked
  | .done _ (.ok (.response r)) => .value r (statusFailure r.status)

end Call

/-- Where an exchange is on its course. -/
inductive Stage
  /-- The hooks of some filters are still to run before the request. -/
  | before (rest : List Filter)
  /-- The request is built and asks to be let through. -/
  | asking (o : Outgoing)
  /-- The call was let through, by a generation of the breaker if there is one. -/
  | waiting (generation : Option Nat) (c : Call)
  /-- The hooks of some filters are still to run after the response. -/
  | after (rest : List Filter)
  /-- The exchange is over, and was stopped or went through. -/
  | finished (stop : Option Stop)

/-- What is done to the breaker of a route. -/
inductive Deed
  /-- A call asks, and the breaker overflows. -/
  | asked
  /-- A call is not let through. -/
  | refused
  /-- A call is let through by a generation. -/
  | admitted (generation : Nat) (c : Call)
  /-- An outcome is reported under a generation. -/
  | reported (generation : Nat) (success : Bool)
  /-- The state or the metrics are read. -/
  | read
  | reset

/-- A breaker goes over to another one by a deed at an instant. -/
inductive Deed.Does (p : BreakerPolicy) (b : Breaker) (now : Duration) : Deed → Breaker → Prop
  | asked {panic : Panic} : (b.refresh p now).1 = .error panic →
      Does p b now .asked (b.refresh p now).2
  | refused : ¬ Breaker.Admits p (b.refresh p now).2 → Does p b now .refused (b.refresh p now).2
  | admitted {c : Call} : Breaker.Admits p (b.refresh p now).2 →
      Does p b now (.admitted (b.refresh p now).2.generation c) (b.refresh p now).2.withCall
  | reported {generation : Nat} {success : Bool} :
      Does p b now (.reported generation success) (b.settle p generation success now).2
  | read : Does p b now .read (b.refresh p now).2
  | reset : Does p b now .reset (b.reset p now).2

/-- What a deed, or none, makes of a breaker at an instant. -/
def Deed.Leaves (p : BreakerPolicy) (b : Breaker) (now : Duration) : Option Deed → Breaker → Prop
  | none, b' => b' = b
  | some d, b' => d.Does p b now b'

/-- The filters whose hooks are still to run at a stage. -/
def Stage.rest : Stage → List Filter
  | .before rest | .after rest => rest
  | .asking _ | .waiting _ _ | .finished _ => []

/-- An exchange at a stage, in the world that it finds there. -/
structure Position where
  world : World
  exchange : Exchange
  stage : Stage

section Step

variable (client : Receiver) (route : Route) (chain : List Filter)

/-- Runs the hook of a filter, which leads to a stage or stops the exchange. -/
def passHook (hook : Filter → World → Exchange → HookResult) (event : String → Hook)
    (stopped : Filter × Fault → Stop) (f : Filter) (next : Stage) (w : World) (x : Exchange) :
    Position :=
  match Filter.runHook hook event f w x with
  | (.passed, w, x) => ⟨w, x, next⟩
  | (.failed e, w, x) => ⟨w, x, .finished (some (stopped (f, .error e)))⟩
  | (.panicked, w, x) => ⟨w, x, .finished (some (stopped (f, .panicked)))⟩
  | (.givenUp, w, x) => ⟨w, x, .finished (some (stopped (f, .givenUp)))⟩

/-- Builds the request. -/
def build (w : World) (x : Exchange) : Position :=
  match x.outgoing with
  | (.error e, x) => ⟨w, x, .finished (some (.unbuilt e))⟩
  | (.ok o, x) => ⟨w, x, .asking o⟩

/-- Hands a request to the client, which a generation of the breaker has let through. -/
def beginCall (generation : Option Nat) (o : Outgoing) (w : World) (x : Exchange) : Position :=
  ⟨(send client x o w).2, x, .waiting generation ⟨client, o, x.scope, w.now, w.gone⟩⟩

/-- Asks the breaker to let a call through, and begins it. -/
def ask (o : Outgoing) (w : World) (x : Exchange) : Position × Option Deed :=
  match route.breaker with
  | none => (beginCall client none o w x, none)
  | some b =>
    match Breaker.enter b.policy (w.breaker b.begun route.id) w.clock.now with
    | (.error _, b) => (⟨w.keepBreaker route.id b, x, .finished (some .overflowed)⟩, some .asked)
    | (.ok (.error e), b) =>
      (⟨w.keepBreaker route.id b, x, .finished (some (.backend e))⟩, some .refused)
    | (.ok (.ok g), b) =>
      (beginCall client (some g) o (w.keepBreaker route.id b) x,
        some (.admitted g ⟨client, o, x.scope, w.now, w.gone⟩))

/-- Reports the outcome of a call under the generation that let it through. -/
def report (generation : Option Nat) (fate : Breaker.CallFate Response) (w : World) :
    Except Panic Unit × World × Option Deed :=
  match route.breaker, generation with
  | some b, some g =>
    let (result, after) := Breaker.settle b.policy (w.breaker b.begun route.id) g
      (fate.succeeds b.policy) w.clock.now
    (result, w.keepBreaker route.id after, some (.reported g (fate.succeeds b.policy)))
  | _, _ => (.ok (), w, none)

/-- Goes on from the end of a call and from what its report came to. -/
def conclude (ended : Waited (Except Error Reply)) (reported : Except Panic Unit) (w : World)
    (x : Exchange) : Position :=
  match ended, reported with
  | .givenUp, _ => ⟨w, x, .finished (some .gone)⟩
  | .done _ _, .error _ => ⟨w, x, .finished (some .overflowed)⟩
  | .done _ (.error e), .ok () => ⟨w, x, .finished (some (.backend e))⟩
  | .done _ (.ok .panicked), .ok () => ⟨w, x, .finished (some .panicked)⟩
  | .done _ (.ok (.response r)), .ok () => ⟨w, x.answeredBy r, .after chain.reverse⟩

/-- The world at the end of a call. -/
def worldAt (ended : Waited (Except Error Reply)) (w : World) : World :=
  match ended with
  | .givenUp => w
  | .done now _ => w.moveTo now

/-- Takes an exchange one step further, with what that does to the breaker. -/
def advance (s : Position) : Position × Option Deed :=
  match s.stage with
  | .before [] => (build s.world s.exchange, none)
  | .before (f :: rest) =>
    (passHook Filter.pre .pre .before f (.before rest) s.world s.exchange, none)
  | .asking o => ask client route o s.world s.exchange
  | .waiting generation c =>
    let (reported, w, deed) := report route generation c.fate (worldAt c.ended s.world)
    (conclude chain c.ended reported w s.exchange, deed)
  | .after [] => (⟨s.world, s.exchange, .finished none⟩, none)
  | .after (f :: rest) =>
    (passHook Filter.post .post .after f (.after rest) s.world s.exchange, none)
  | .finished _ => (s, none)

/-- Drops the future of an exchange at a stage: a call that was let through has failed. -/
def abandon (stage : Stage) (w : World) : World × Option Deed :=
  match stage with
  | .waiting generation _ => (report route generation .dropped w).2
  | _ => (w, none)

/-- From one position an exchange alone comes to another. -/
def Advances : Position → Position → Prop :=
  Relation.ReflTransGen fun s t => (advance client route chain s).1 = t

end Step

variable {client : Receiver} {route : Route} {chain : List Filter} {stop : Option Stop} {t : Trace}
  {fs ran : List Filter} {at_ : Option (Filter × Fault)} {o : Outgoing} {now : Instant}
  {r : Response} {e : Error} {w w' w₁ w₂ : World} {x x' x₁ x₂ : Exchange} {b : RouteBreaker}

/-! ## Calls -/

/-- How the sending ends is how the call ends. -/
theorem fst_send (client : Receiver) (x : Exchange) (o : Outgoing) (w : World) :
    (send client x o w).1 = Call.ended ⟨client, o, x.scope, w.now, w.gone⟩ := by
  rw [send, Call.ended]
  cases x.scope.isCancelled w.now with
  | true => rfl
  | false => rfl

/-- A call ends with a response exactly if the client answers it within its scope. -/
theorem Call.isAnswered_iff {c : Call} {r : Response} :
    c.IsAnswered r ↔ ∃ now, c.ended = .done now (.ok (.response r)) := by
  rw [IsAnswered, ended, Scope.run]
  cases hcancelled : c.scope.isCancelled c.begun with
  | true => simp
  | false =>
    have hlimit : earlier (earlier (c.scope.deadline.map (max c.begun)) c.scope.cancelAt) c.gone =
        c.limit := rfl
    simp only [Bool.false_eq_true, if_false, true_and, hlimit]
    rcases c.client c.request c.begun c.limit with ⟨⟨now, result⟩ | _, seen⟩
    · exact Iff.rfl
    · cases c.scope.reason c.begun c.gone c.limit with
      | givenUp => simp
      | done now e => simp

theorem fst_call (client : Receiver) (x : Exchange) (o : Outgoing) (w : World) :
    (call client x o w).1 = Call.fate ⟨client, o, x.scope, w.now, w.gone⟩ := by
  rw [fate_call, fst_send]
  rfl

theorem snd_call (client : Receiver) (x : Exchange) (o : Outgoing) (w : World) :
    (call client x o w).2 = worldAt (send client x o w).1 (send client x o w).2 := by
  rw [call]
  split <;> simp only [*] <;> rfl

theorem snd_send_keepBreaker (client : Receiver) (x : Exchange) (o : Outgoing) (w : World)
    (id : String) (b : Breaker) :
    (send client x o (w.keepBreaker id b)).2 = (send client x o w).2.keepBreaker id b := by
  have hnow : (w.keepBreaker id b).now = w.now := rfl
  rw [send, send, hnow]
  cases x.scope.isCancelled w.now with
  | true => rfl
  | false => rfl

theorem breakers_send (client : Receiver) (x : Exchange) (o : Outgoing) (w : World) :
    (send client x o w).2.breakers = w.breakers := by
  rw [send]
  cases x.scope.isCancelled w.now with
  | true => rfl
  | false => rfl

theorem worldAt_keepBreaker (ended : Waited (Except Error Reply)) (w : World) (id : String)
    (b : Breaker) : worldAt ended (w.keepBreaker id b) = (worldAt ended w).keepBreaker id b := by
  cases ended <;> rfl

theorem clock_worldAt (ended : Waited (Except Error Reply)) (h : w.clockRuns = false) :
    (worldAt ended w).clock = w.clock := by
  cases ended with
  | givenUp => rfl
  | done now result => simp only [worldAt, World.moveTo, h, Bool.false_eq_true, if_false]

theorem breakers_worldAt (ended : Waited (Except Error Reply)) (w : World) :
    (worldAt ended w).breakers = w.breakers := by
  cases ended <;> rfl

/-- What becomes of a call that misses a response stops the exchange, unless its report does. -/
theorem conclude_of_missing {ended : Waited (Except Error Reply)} {reported : Except Panic Unit}
    {stop : Stop} (chain : List Filter) (w : World) (x : Exchange) (h : missing ended = some stop)
    (hreported : stop = .gone ∨ reported = .ok ()) :
    conclude chain ended reported w x = ⟨w, x, .finished (some stop)⟩ := by
  match ended with
  | .givenUp => cases h; rfl
  | .done _ (.error e) | .done _ (.ok .panicked) =>
    cases h
    rw [hreported.resolve_left nofun]
    rfl
  | .done _ (.ok (.response r)) => cases h

/-- A report that overflows stops the exchange, unless its caller is gone. -/
theorem conclude_of_overflow {ended : Waited (Except Error Reply)} {panic : Panic}
    (chain : List Filter) (w : World) (x : Exchange) (h : missing ended ≠ some .gone) :
    conclude chain ended (.error panic) w x = ⟨w, x, .finished (some .overflowed)⟩ := by
  cases ended with
  | givenUp => exact absurd rfl h
  | done now result => rfl

/-! ## An exchange that nothing comes between -/

theorem Advances.head {s : Position} (w : World) (x : Exchange) (stage : Stage)
    (h : Advances client route chain (advance client route chain ⟨w, x, stage⟩).1 s) :
    Advances client route chain ⟨w, x, stage⟩ s :=
  Relation.ReflTransGen.head rfl h

/-- An exchange takes a step for each hook that runs. -/
theorem advances_of_ran {hook : Filter → World → Exchange → HookResult} {event : String → Hook}
    {next : List Filter → Stage} {stopped : Filter × Fault → Stop}
    (hstep : ∀ f rest w x, (advance client route chain ⟨w, x, next (f :: rest)⟩).1 =
      passHook hook event stopped f (next rest) w x)
    (h : Ran hook event fs w x ran at_ w₁ x₁) :
    Advances client route chain ⟨w, x, next fs⟩
      ⟨w₁, x₁, at_.elim (next []) fun s => .finished (some (stopped s))⟩ := by
  -- a run of hooks stops where the stages do, so that each of its cases is one step
  induction h with
  | through w x => exact .refl
  | next hrun _ ih =>
    apply Advances.head
    rw [hstep, passHook, hrun]
    exact ih
  | @stopped _ _ fault _ _ _ _ hrun =>
    apply Advances.head
    rw [hstep, passHook, hrun]
    cases fault <;> exact .refl

/-- An exchange whose hooks before the request all succeed comes to ask with the request built. -/
theorem Built.advances (h : Built chain w x o w₁ x₂) :
    Advances client route chain ⟨w, x, .before chain⟩ ⟨w₁, x₂, .asking o⟩ := by
  obtain ⟨x₁, hran, hout⟩ := h
  refine (advances_of_ran (fun _ _ _ _ => rfl) hran).trans (Advances.head w₁ x₁ (.before []) ?_)
  simp only [advance, build, hout]
  exact .refl

/-- A request that the breaker does not let through stops the exchange in the world that the breaker
leaves. -/
theorem advances_of_panic {panic : Panic} (o : Outgoing) (x : Exchange)
    (h : admission route w = .error panic) :
    Advances client route chain ⟨w, x, .asking o⟩
      ⟨(guarded client route x o w).2, x, .finished (some .overflowed)⟩ := by
  apply Advances.head
  cases hb : route.breaker with
  | none =>
    simp only [admission, hb] at h
    cases h
  | some b =>
    simp only [admission, hb] at h
    simp only [advance, ask, guarded, hb, Breaker.execute]
    rcases henter : Breaker.enter b.policy (w.breaker b.begun route.id) w.clock.now with
      ⟨panic' | e | generation, entered⟩ <;> rw [henter] at h <;> cases h
    exact .refl

theorem advances_of_refused (o : Outgoing) (x : Exchange)
    (h : admission route w = .ok (.error e)) :
    Advances client route chain ⟨w, x, .asking o⟩
      ⟨(guarded client route x o w).2, x, .finished (some (.backend e))⟩ := by
  apply Advances.head
  cases hb : route.breaker with
  | none =>
    simp only [admission, hb] at h
    cases h
  | some b =>
    simp only [admission, hb] at h
    simp only [advance, ask, guarded, hb, Breaker.execute]
    rcases henter : Breaker.enter b.policy (w.breaker b.begun route.id) w.clock.now with
      ⟨panic | e' | generation, entered⟩ <;> rw [henter] at h <;> cases h
    exact .refl

/-- A request that is let through is sent, and its outcome reported, before anything else is done to
the breaker. -/
theorem advances_of_admitted (o : Outgoing) (x : Exchange) (h : admission route w = .ok (.ok ())) :
    Advances client route chain ⟨w, x, .asking o⟩
      (conclude chain (send client x o w).1 (settlement client route x o w)
        (guarded client route x o w).2 x) := by
  apply Advances.head
  cases hb : route.breaker with
  | none =>
    simp only [advance, ask, guarded, settlement, hb]
    apply Advances.head
    rw [Prod.map_snd, snd_call, fst_send]
    simp only [advance, report, hb]
    exact .refl
  | some b =>
    simp only [admission, hb] at h
    simp only [advance, ask, guarded, settlement, hb, Breaker.execute]
    rcases henter : Breaker.enter b.policy (w.breaker b.begun route.id) w.clock.now with
      ⟨panic | e | generation, entered⟩ <;> rw [henter] at h <;> cases h
    apply Advances.head
    -- the breaker that the report finds is the one that the admission left
    simp only [advance, report, hb, snd_send_keepBreaker, worldAt_keepBreaker,
      World.breaker_keepBreaker, World.keepBreaker_keepBreaker]
    rw [fst_call, snd_call, fst_send]
    generalize Breaker.CallFate.delivered _ _ = delivered
    cases delivered <;> exact .refl

/-- An exchange alone goes the course that it has. -/
theorem Course.advances (h : Course client route chain w x t stop w' x') :
    Advances client route chain ⟨w, x, .before chain⟩ ⟨w', x', .finished stop⟩ := by
  cases h with
  | stoppedBefore hran => exact advances_of_ran (fun _ _ _ _ => rfl) hran
  | @unbuilt e w₁ x₁ x₂ hran hout =>
    refine (advances_of_ran (fun _ _ _ _ => rfl) hran).trans (Advances.head w' x₁ (.before []) ?_)
    simp only [advance, build, hout]
    exact .refl
  | unasked hbuilt hpanic => exact hbuilt.advances.trans (advances_of_panic _ _ hpanic)
  | refused hbuilt hrefused => exact hbuilt.advances.trans (advances_of_refused _ _ hrefused)
  | @unanswered o stop w₁ _ hbuilt hadmitted hmissing hreported =>
    refine hbuilt.advances.trans ((advances_of_admitted o x' hadmitted).trans ?_)
    rw [conclude_of_missing chain _ _ hmissing hreported]
  | @unreported o panic w₁ _ hbuilt hadmitted hmissing hsettled =>
    refine hbuilt.advances.trans ((advances_of_admitted o x' hadmitted).trans ?_)
    rw [hsettled, conclude_of_overflow chain _ _ hmissing]
  | @answered o now r ran at_ w₁ w₃ x₂ x₃ hbuilt hadmitted hsend hsettled hran =>
    have hafter : Advances client route chain
        ⟨(guarded client route x₂ o w₁).2, x₂.answeredBy r, .after chain.reverse⟩
        ⟨w', x', at_.elim (.after []) fun s => .finished (some (.after s))⟩ :=
      advances_of_ran (fun _ _ _ _ => rfl) hran
    refine hbuilt.advances.trans ((advances_of_admitted o x₂ hadmitted).trans ?_)
    rw [hsend, hsettled]
    refine hafter.trans ?_
    cases at_ with
    | none => exact Advances.head w' x' (.after []) .refl
    | some s => exact .refl

/-! ## What a step does to the breaker -/

theorem lookup_ask {present : Breaker} (client : Receiver) (o : Outgoing) (x : Exchange)
    (hb : route.breaker = some b) (hpresent : w.breakers.lookup route.id = some present) :
    ∃ next, (ask client route o w x).1.world.breakers.lookup route.id = some next ∧
      Deed.Leaves b.policy present w.clock.now (ask client route o w x).2 next := by
  simp only [ask, hb, World.breaker_of_lookup hpresent]
  rcases Breaker.enter_cases b.policy present w.clock.now with
    ⟨hadmits, henter⟩ | ⟨hrefuses, e, henter⟩ | ⟨panic, hpanic, henter⟩
  · rw [henter]
    refine ⟨_, ?_, .admitted hadmits⟩
    simp only [beginCall, breakers_send]
    exact World.lookup_keepBreaker _ _ _
  · rw [henter]
    exact ⟨_, World.lookup_keepBreaker _ _ _, .refused hrefuses⟩
  · rw [henter]
    exact ⟨_, World.lookup_keepBreaker _ _ _, .asked hpanic⟩

theorem lookup_report {present : Breaker} (generation : Option Nat)
    (fate : Breaker.CallFate Response) (hb : route.breaker = some b)
    (hpresent : w.breakers.lookup route.id = some present) :
    ∃ next, (report route generation fate w).2.1.breakers.lookup route.id = some next ∧
      Deed.Leaves b.policy present w.clock.now (report route generation fate w).2.2 next := by
  cases generation with
  | none =>
    simp only [report, hb]
    exact ⟨present, hpresent, rfl⟩
  | some g =>
    simp only [report, hb, World.breaker_of_lookup hpresent]
    exact ⟨_, World.lookup_keepBreaker _ _ _, .reported⟩

theorem lookup_abandon {present : Breaker} (stage : Stage) (hb : route.breaker = some b)
    (hpresent : w.breakers.lookup route.id = some present) :
    ∃ next, (abandon route stage w).1.breakers.lookup route.id = some next ∧
      Deed.Leaves b.policy present w.clock.now (abandon route stage w).2 next := by
  cases stage with
  | waiting generation c => exact lookup_report generation .dropped hb hpresent
  | before rest | asking o | after rest | finished stop => exact ⟨present, hpresent, rfl⟩

theorem world_passHook (hook : Filter → World → Exchange → HookResult) (event : String → Hook)
    (stopped : Filter × Fault → Stop) (f : Filter) (next : Stage) (w : World) (x : Exchange) :
    (passHook hook event stopped f next w x).world = (Filter.runHook hook event f w x).2.1 := by
  rw [passHook]
  split <;> simp only [*]

theorem world_conclude (chain : List Filter) (ended : Waited (Except Error Reply))
    (reported : Except Panic Unit) (w : World) (x : Exchange) :
    (conclude chain ended reported w x).world = w := by
  rw [conclude.eq_def]
  split <;> rfl

/-- What a step does to the breaker of the route is what it says that it does. -/
theorem lookup_advance {present : Breaker} (client : Receiver) (chain : List Filter) (x : Exchange)
    {stage : Stage} (hb : route.breaker = some b) (hspares : ∀ f ∈ stage.rest, f.Spares route.id)
    (hclock : w.clockRuns = false) (hpresent : w.breakers.lookup route.id = some present) :
    ∃ next,
      (advance client route chain ⟨w, x, stage⟩).1.world.breakers.lookup route.id = some next ∧
      Deed.Leaves b.policy present w.clock.now (advance client route chain ⟨w, x, stage⟩).2 next := by
  match stage with
  | .before [] =>
    simp only [advance, build]
    split <;> exact ⟨present, hpresent, rfl⟩
  | .before (f :: rest) =>
    have hf := Filter.lookup_pre (hspares f List.mem_cons_self) (w.note (.pre f.name)) x
    simp only [advance, world_passHook]
    exact ⟨present, hf.trans hpresent, rfl⟩
  | .asking o => exact lookup_ask client o x hb hpresent
  | .waiting generation c =>
    -- the end of the call moves the timeline, and the clock that the breaker goes by stands still
    have hworld : (worldAt c.ended w).breakers.lookup route.id = some present := by
      rw [breakers_worldAt, hpresent]
    have hreport := lookup_report generation c.fate hb hworld
    rw [clock_worldAt c.ended hclock] at hreport
    simp only [advance, world_conclude]
    exact hreport
  | .after [] => exact ⟨present, hpresent, rfl⟩
  | .after (f :: rest) =>
    have hf := Filter.lookup_post (hspares f List.mem_cons_self) (w.note (.post f.name)) x
    simp only [advance, world_passHook]
    exact ⟨present, hf.trans hpresent, rfl⟩
  | .finished stop => exact ⟨present, hpresent, rfl⟩

end Gateway

end Gatehouse
