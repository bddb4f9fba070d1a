import Gatehouse.Gateway
import Gatehouse.Proofs.Breaker.Operation
import Gatehouse.Proofs.Filter.Chain

/-!
# The course of an exchange

An exchange goes through the hooks before its request, the sending and the hooks after its response,
and stops where one of them does not succeed. `Course` has a case for each place at which it can stop,
with what has run up to there. There is a course for every exchange, and `Course.handle_eq` says that
it is the one that the gateway takes, with the ending that belongs to it.

One place is no part of the plan. Where the breaker begins a generation whose end cannot be told, it
panics: when it is asked, or when the call is reported to it, be there a response or not.
-/

namespace Gatehouse.Gateway

open Gatehouse.Filter (Ran Fault)

/-- Why an exchange ends before it is answered. -/
inductive Stop
  /-- The hook of a filter before the request. -/
  | before (at_ : Filter × Fault)
  /-- There is no request to send. -/
  | unbuilt (e : Error)
  /-- The breaker lets no call through, or the call fails. -/
  | backend (e : Error)
  /-- The client broke down. -/
  | panicked
  /-- The caller is gone. -/
  | gone
  /-- The breaker has begun a generation whose end cannot be told. -/
  | overflowed
  /-- The hook of a filter after the response. -/
  | after (at_ : Filter × Fault)

/-- Whether a failure of a backend is reported as it is. -/
def isReportedAsIs : Error → Bool
  | .deadlineExceeded | .canceled | .circuitOpen _ | .halfOpenExhausted _ | .backend _ => true
  | _ => false

/-- How an exchange on a route ends: it is answered if nothing stopped it, and otherwise its error
carries the id of the route and, if a filter failed, the name of the filter. -/
def endingOn (route : Route) : Option Stop → Ending
  | none => .answered
  | some (.before (f, .error e)) => .failed (.route route.id (.preFilter f.name e))
  | some (.before (_, .panicked)) => .panicked
  | some (.before (_, .givenUp)) => .dropped
  | some (.unbuilt e) => .failed (.route route.id e)
  | some (.backend e) =>
    .failed (.route route.id (if isReportedAsIs e then e else .backend e.message))
  | some .panicked => .panicked
  | some .gone => .dropped
  | some .overflowed => .panicked
  | some (.after (f, .error e)) => .failed (.route route.id (.postFilter f.name e))
  | some (.after (_, .panicked)) => .panicked
  | some (.after (_, .givenUp)) => .dropped

/-- Why a call that was let through gets no response, if it gets none. -/
def missing : Waited (Except Error Reply) → Option Stop
  | .givenUp => some .gone
  | .done _ (.error e) => some (.backend e)
  | .done _ (.ok .panicked) => some .panicked
  | .done _ (.ok (.response _)) => none

/-- The answer of the breaker of a route to a call; a route without one lets every call through. -/
def admission (route : Route) (w : World) : Except Panic (Except Error Unit) :=
  match route.breaker with
  | none => .ok (.ok ())
  | some b =>
    (Breaker.enter b.policy (w.breaker b.begun route.id) w.clock.now).1.map (·.map fun _ => ())

/-- What the report of a call to the breaker of a route comes to. -/
def settlement (client : Receiver) (route : Route) (x : Exchange) (o : Outgoing) (w : World) :
    Except Panic Unit :=
  match route.breaker with
  | none => .ok ()
  | some b =>
    match Breaker.enter b.policy (w.breaker b.begun route.id) w.clock.now with
    | (.ok (.ok generation), entered) =>
      let (fate, w) := call client x o w
      (Breaker.settle b.policy entered generation (fate.succeeds b.policy) w.clock.now).1
    | _ => .ok ()

/-- What has run of an exchange: the filters whose hooks ran before the request, in order, whether the
request was handed to the client, and the filters whose hooks ran after the response, in order. -/
structure Trace where
  before : List Filter
  sent : Bool
  after : List Filter

/-- The events of a trace. -/
def Trace.events (t : Trace) : List Hook :=
  t.before.map (.pre ·.name) ++ (if t.sent then [.send] else []) ++ t.after.map (.post ·.name)

/-- The hooks before the request all succeeded, and left a request to send. -/
def Built (chain : List Filter) (w : World) (x : Exchange) (o : Outgoing) (w₁ : World)
    (x₂ : Exchange) : Prop :=
  ∃ x₁, Ran Filter.pre .pre chain w x chain none w₁ x₁ ∧ x₁.outgoing = (.ok o, x₂)

/-- From a state on, an exchange went its course up to another state, and was stopped or went
through. -/
inductive Course (client : Receiver) (route : Route) (chain : List Filter) (w : World)
    (x : Exchange) : Trace → Option Stop → World → Exchange → Prop
  | stoppedBefore {ran : List Filter} {at_ : Filter × Fault} {w₁ : World} {x₁ : Exchange} :
      Ran Filter.pre .pre chain w x ran (some at_) w₁ x₁ →
      Course client route chain w x ⟨ran, false, []⟩ (some (.before at_)) w₁ x₁
  | unbuilt {e : Error} {w₁ : World} {x₁ x₂ : Exchange} :
      Ran Filter.pre .pre chain w x chain none w₁ x₁ → x₁.outgoing = (.error e, x₂) →
      Course client route chain w x ⟨chain, false, []⟩ (some (.unbuilt e)) w₁ x₂
  | unasked {o : Outgoing} {panic : Panic} {w₁ : World} {x₂ : Exchange} :
      Built chain w x o w₁ x₂ → admission route w₁ = .error panic →
      Course client route chain w x ⟨chain, false, []⟩ (some .overflowed)
        (guarded client route x₂ o w₁).2 x₂
  | refused {o : Outgoing} {e : Error} {w₁ : World} {x₂ : Exchange} :
      Built chain w x o w₁ x₂ → admission route w₁ = .ok (.error e) →
      Course client route chain w x ⟨chain, false, []⟩ (some (.backend e))
        (guarded client route x₂ o w₁).2 x₂
  | unanswered {o : Outgoing} {stop : Stop} {w₁ : World} {x₂ : Exchange} :
      Built chain w x o w₁ x₂ → admission route w₁ = .ok (.ok ()) →
      missing (send client x₂ o w₁).1 = some stop →
      stop = .gone ∨ settlement client route x₂ o w₁ = .ok () →
      -- a scope that is cancelled by then does not let the client begin
      Course client route chain w x ⟨chain, !x₂.scope.isCancelled w₁.now, []⟩ (some stop)
        (guarded client route x₂ o w₁).2 x₂
  | unreported {o : Outgoing} {panic : Panic} {w₁ : World} {x₂ : Exchange} :
      Built chain w x o w₁ x₂ → admission route w₁ = .ok (.ok ()) →
      missing (send client x₂ o w₁).1 ≠ some .gone →
      settlement client route x₂ o w₁ = .error panic →
      Course client route chain w x ⟨chain, !x₂.scope.isCancelled w₁.now, []⟩ (some .overflowed)
        (guarded client route x₂ o w₁).2 x₂
  | answered {o : Outgoing} {now : Instant} {r : Response} {ran : List Filter}
      {stop : Option (Filter × Fault)} {w₁ w₃ : World} {x₂ x₃ : Exchange} :
      Built chain w x o w₁ x₂ → admission route w₁ = .ok (.ok ()) →
      (send client x₂ o w₁).1 = .done now (.ok (.response r)) →
      settlement client route x₂ o w₁ = .ok () →
      Ran Filter.post .post chain.reverse (guarded client route x₂ o w₁).2 (x₂.answeredBy r)
        ran stop w₃ x₃ →
      Course client route chain w x ⟨chain, true, ran⟩ (stop.map .after) w₃ x₃

/-- A trace keeps the order of a chain and ends where the exchange was stopped. -/
structure Trace.Follows (chain : List Filter) (stop : Option Stop) (t : Trace) : Prop where
  before : t.before <+: chain
  after : t.after <+: chain.reverse
  /-- The request is sent behind all hooks before it. -/
  sent : t.sent = true → t.before = chain
  /-- Hooks after the response only run once the request was sent. -/
  answered : t.after ≠ [] → t.sent = true
  stoppedBefore : ∀ f fault, stop = some (.before (f, fault)) → t.before.getLast? = some f
  stoppedAfter : ∀ f fault, stop = some (.after (f, fault)) → t.after.getLast? = some f
  /-- What is not stopped runs every hook. -/
  through : stop = none → t.before = chain ∧ t.sent = true ∧ t.after = chain.reverse

variable {client : Receiver} {route : Route} {chain : List Filter} {stop : Option Stop} {t : Trace}
  {ran : List Filter} {at_ : Option (Filter × Fault)} {o : Outgoing} {now : Instant} {r : Response}
  {e : Error} {w w' w₁ : World} {x x' x₁ x₂ : Exchange}

/-- Only what nothing stopped is answered. -/
theorem endingOn_eq_answered_iff : endingOn route stop = .answered ↔ stop = none := by
  match stop with
  | none => simp [endingOn]
  | some (.before (_, .error _)) | some (.before (_, .panicked)) | some (.before (_, .givenUp))
  | some (.unbuilt _) | some (.backend _) | some .panicked | some .gone | some .overflowed
  | some (.after (_, .error _)) | some (.after (_, .panicked)) | some (.after (_, .givenUp)) =>
    simp [endingOn]

theorem backendError_eq (e : Error) :
    backendError e = if isReportedAsIs e then e else .backend e.message := by
  cases e <;> rfl

/-! ## The sending -/

/-- A client that is begun is noted, and nothing else is. -/
theorem hooks_call (client : Receiver) (x : Exchange) (o : Outgoing) (w : World) :
    (call client x o w).2.hooks =
      w.hooks ++ if !x.scope.isCancelled w.now then [.send] else [] := by
  have hsend : (send client x o w).2.hooks =
      w.hooks ++ if !x.scope.isCancelled w.now then [.send] else [] := by
    rw [send]
    cases x.scope.isCancelled w.now with
    | true => exact (List.append_nil _).symm
    | false => rfl
  rw [call, ← hsend]
  split <;> simp only [*, World.hooks_moveTo]

/-- A response comes only of a client that is begun. -/
theorem isCancelled_of_response (h : (send client x o w).1 = .done now (.ok (.response r))) :
    x.scope.isCancelled w.now = false := by
  cases hc : x.scope.isCancelled w.now with
  | false => rfl
  | true => simp [send, Scope.run, hc] at h

/-- A call that misses nothing gets a response. -/
theorem exists_response {ended : Waited (Except Error Reply)} (h : missing ended = none) :
    ∃ now r, ended = .done now (.ok (.response r)) := by
  match ended with
  | .givenUp | .done _ (.error _) | .done _ (.ok .panicked) => cases h
  | .done now (.ok (.response r)) => exact ⟨now, r, rfl⟩

/-- What becomes of a call is what the sending comes to. -/
theorem fate_call (client : Receiver) (x : Exchange) (o : Outgoing) (w : World) :
    (call client x o w).1 = match (send client x o w).1 with
      | .givenUp => .dropped
      | .done _ (.error e) => .error e
      | .done _ (.ok .panicked) => .panicked
      | .done _ (.ok (.response r)) => .value r (statusFailure r.status) := by
  rw [call]
  split <;> simp only [*]

/-- A breaker that panics when it is asked breaks off the exchange, and nothing is sent. -/
theorem guarded_of_panic {panic : Panic} (client : Receiver) (x : Exchange) (o : Outgoing)
    (h : admission route w = .error panic) :
    ∃ w₂, guarded client route x o w = (.error panic, w₂) ∧ w₂.hooks = w.hooks ∧
      w₂.clock = w.clock := by
  cases hb : route.breaker with
  | none =>
    simp only [admission, hb] at h
    cases h
  | some b =>
    simp only [admission, hb] at h
    simp only [guarded, hb, Breaker.execute]
    rcases henter : Breaker.enter b.policy (w.breaker b.begun route.id) w.clock.now with
      ⟨panic' | e | generation, entered⟩ <;> rw [henter] at h <;> cases h
    exact ⟨_, rfl, rfl, rfl⟩

/-- A route that refuses a call has the error of its breaker, and nothing is sent. -/
theorem guarded_of_refused (client : Receiver) (x : Exchange) (o : Outgoing)
    (h : admission route w = .ok (.error e)) :
    ∃ w₂, guarded client route x o w = (.ok (.error e), w₂) ∧ w₂.hooks = w.hooks := by
  cases hb : route.breaker with
  | none =>
    simp only [admission, hb] at h
    cases h
  | some b =>
    simp only [admission, hb] at h
    simp only [guarded, hb, Breaker.execute]
    rcases henter : Breaker.enter b.policy (w.breaker b.begun route.id) w.clock.now with
      ⟨panic | e' | generation, entered⟩ <;> rw [henter] at h <;> cases h
    exact ⟨_, rfl, rfl⟩

/-- A route that lets a call through makes it, and delivers it by what its report comes to. -/
theorem guarded_of_admitted (client : Receiver) (x : Exchange) (o : Outgoing)
    (h : admission route w = .ok (.ok ())) :
    ∃ w₂, guarded client route x o w =
        ((call client x o w).1.delivered (settlement client route x o w), w₂) ∧
      w₂.hooks = w.hooks ++ (if !x.scope.isCancelled w.now then [.send] else []) ∧
      w₂.clock = (call client x o w).2.clock := by
  rw [← hooks_call]
  cases hb : route.breaker with
  | none =>
    simp only [guarded, settlement, hb]
    exact ⟨_, by rw [Breaker.CallFate.delivered_ok]; rfl, rfl, rfl⟩
  | some b =>
    simp only [admission, hb] at h
    simp only [guarded, settlement, hb, Breaker.execute]
    rcases henter : Breaker.enter b.policy (w.breaker b.begun route.id) w.clock.now with
      ⟨panic | e' | generation, entered⟩ <;> rw [henter] at h
    · cases h
    · cases h
    · simp only
      generalize (call client x o w).1.delivered _ = delivered
      cases delivered <;> exact ⟨_, rfl, rfl, rfl⟩

/-- Only the end of a generation that cannot be told makes the breaker of a route panic. -/
theorem overflow_of_admission {panic : Panic} (h : admission route w = .error panic) :
    ∃ b, route.breaker = some b ∧ ∃ s, Breaker.expiryFits b.policy s w.clock.now = false := by
  cases hb : route.breaker with
  | none =>
    simp only [admission, hb] at h
    cases h
  | some b =>
    simp only [admission, hb] at h
    rcases Breaker.enter_result_cases b.policy (w.breaker b.begun route.id) w.clock.now with
      ⟨answer, hanswer⟩ | ⟨-, s, hunfit⟩
    · rw [hanswer] at h
      cases h
    · exact ⟨b, rfl, s, hunfit⟩

theorem overflow_of_settlement {panic : Panic} (h : settlement client route x o w = .error panic) :
    ∃ b, route.breaker = some b ∧
      ∃ s, Breaker.expiryFits b.policy s (call client x o w).2.clock.now = false := by
  cases hb : route.breaker with
  | none =>
    simp only [settlement, hb] at h
    cases h
  | some b =>
    simp only [settlement, hb] at h
    split at h
    · next generation entered _ =>
      rcases Breaker.settle_result_cases b.policy entered generation
          ((call client x o w).1.succeeds b.policy) (call client x o w).2.clock.now with
        hok | ⟨-, s, hunfit⟩
      · cases hok.symm.trans h
      · exact ⟨b, rfl, s, hunfit⟩
    · cases h

/-! ## What a course leaves -/

theorem Built.hooks (h : Built chain w x o w₁ x₂) :
    w₁.hooks = w.hooks ++ chain.map (.pre ·.name) := by
  obtain ⟨x₁, hran, -⟩ := h
  exact hran.hooks

/-- What has run of a course is what the gateway notes of it. -/
theorem Course.hooks (h : Course client route chain w x t stop w' x') :
    w'.hooks = w.hooks ++ t.events := by
  cases h with
  | stoppedBefore hran => simpa [Trace.events] using hran.hooks
  | unbuilt hran _ => simpa [Trace.events] using hran.hooks
  | @unasked o _ w₁ _ hbuilt hpanic =>
    obtain ⟨w₂, hguarded, hhooks, -⟩ := guarded_of_panic client x' o hpanic
    rw [hguarded, hhooks, hbuilt.hooks]
    simp [Trace.events]
  | @refused o _ w₁ _ hbuilt hrefused =>
    obtain ⟨w₂, hguarded, hhooks⟩ := guarded_of_refused client x' o hrefused
    rw [hguarded, hhooks, hbuilt.hooks]
    simp [Trace.events]
  | @unanswered o _ w₁ _ hbuilt hadmitted _ _ =>
    obtain ⟨w₂, hguarded, hhooks, -⟩ := guarded_of_admitted client x' o hadmitted
    rw [hguarded, hhooks, hbuilt.hooks]
    simp [Trace.events]
  | @unreported o _ w₁ _ hbuilt hadmitted _ _ =>
    obtain ⟨w₂, hguarded, hhooks, -⟩ := guarded_of_admitted client x' o hadmitted
    rw [hguarded, hhooks, hbuilt.hooks]
    simp [Trace.events]
  | @answered o _ _ _ _ w₁ _ x₂ _ hbuilt hadmitted hsend _ hran =>
    obtain ⟨w₂, hguarded, hhooks, -⟩ := guarded_of_admitted client x₂ o hadmitted
    -- the trace says that the request was sent, which the response shows
    rw [hran.hooks, hguarded, hhooks, hbuilt.hooks, isCancelled_of_response hsend]
    simp [Trace.events]

theorem missing_cases {ended : Waited (Except Error Reply)} {s : Stop}
    (h : missing ended = some s) :
    s = .gone ∨ (∃ e, s = .backend e) ∨ s = .panicked := by
  match ended with
  | .givenUp => cases h; exact .inl rfl
  | .done _ (.error e) => cases h; exact .inr (.inl ⟨e, rfl⟩)
  | .done _ (.ok .panicked) => cases h; exact .inr (.inr rfl)
  | .done _ (.ok (.response _)) => cases h

/-- A trace that ends between the hooks before the request and those after the response. -/
theorem Trace.follows_of_unanswered {s : Stop} {sent : Bool} (hbefore : ∀ at_, s ≠ .before at_)
    (hafter : ∀ at_, s ≠ .after at_) : (⟨chain, sent, []⟩ : Trace).Follows chain (some s) where
  before := List.prefix_refl _
  after := List.nil_prefix
  sent _ := rfl
  answered h := absurd rfl h
  stoppedBefore _ _ h := absurd (Option.some.inj h) (hbefore _)
  stoppedAfter _ _ h := absurd (Option.some.inj h) (hafter _)
  through := nofun

/-- Every course keeps the order of the chain and ends where it was stopped. -/
theorem Course.follows (h : Course client route chain w x t stop w' x') : t.Follows chain stop := by
  cases h with
  | stoppedBefore hran =>
    exact {
      before := hran.isPrefix
      after := List.nil_prefix
      sent := nofun
      answered := fun h => absurd rfl h
      stoppedBefore := fun f fault h => by cases h; exact hran.getLast?_eq
      stoppedAfter := nofun
      through := nofun }
  | unbuilt => exact Trace.follows_of_unanswered nofun nofun
  | unasked => exact Trace.follows_of_unanswered nofun nofun
  | refused => exact Trace.follows_of_unanswered nofun nofun
  | unreported => exact Trace.follows_of_unanswered nofun nofun
  | unanswered _ _ hmissing =>
    rcases missing_cases hmissing with rfl | ⟨e, rfl⟩ | rfl <;>
      exact Trace.follows_of_unanswered nofun nofun
  | @answered _ _ _ ran at_ _ _ _ _ _ _ _ _ hran =>
    cases at_ with
    | none =>
      exact {
        before := List.prefix_refl _
        after := hran.isPrefix
        sent := fun _ => rfl
        answered := fun _ => rfl
        stoppedBefore := nofun
        stoppedAfter := nofun
        through := fun _ => ⟨rfl, rfl, hran.eq_of_through⟩ }
    | some at_ =>
      exact {
        before := List.prefix_refl _
        after := hran.isPrefix
        sent := fun _ => rfl
        answered := fun _ => rfl
        stoppedBefore := nofun
        stoppedAfter := fun f fault h => by cases h; exact hran.getLast?_eq
        through := nofun }

/-! ## The course that the gateway takes -/

/-- Every exchange has a course. -/
theorem exists_course (client : Receiver) (route : Route) (chain : List Filter) (w : World)
    (x : Exchange) : ∃ t stop w' x', Course client route chain w x t stop w' x' := by
  -- each step either stops the exchange or gives what the next one needs
  obtain ⟨ran, stop, w₁, x₁, hpre⟩ := Filter.exists_ran Filter.pre .pre chain w x
  cases stop with
  | some at_ => exact ⟨_, _, _, _, .stoppedBefore hpre⟩
  | none =>
    rw [hpre.eq_of_through] at hpre
    match hout : x₁.outgoing with
    | (.error e, x₂) => exact ⟨_, _, _, _, .unbuilt hpre hout⟩
    | (.ok o, x₂) =>
      have hbuilt : Built chain w x o w₁ x₂ := ⟨x₁, hpre, hout⟩
      match hadmission : admission route w₁ with
      | .error panic => exact ⟨_, _, _, _, .unasked hbuilt hadmission⟩
      | .ok (.error e) => exact ⟨_, _, _, _, .refused hbuilt hadmission⟩
      | .ok (.ok ()) =>
        by_cases hgone : missing (send client x₂ o w₁).1 = some .gone
        · exact ⟨_, _, _, _, .unanswered hbuilt hadmission hgone (.inl rfl)⟩
        · match hsettled : settlement client route x₂ o w₁ with
          | .error panic => exact ⟨_, _, _, _, .unreported hbuilt hadmission hgone hsettled⟩
          | .ok () =>
            cases hmissing : missing (send client x₂ o w₁).1 with
            | some s => exact ⟨_, _, _, _, .unanswered hbuilt hadmission hmissing (.inr hsettled)⟩
            | none =>
              obtain ⟨now, r, hsend⟩ := exists_response hmissing
              obtain ⟨ran, stop, w₃, x₃, hpost⟩ := Filter.exists_ran Filter.post .post chain.reverse
                (guarded client route x₂ o w₁).2 (x₂.answeredBy r)
              exact ⟨_, _, _, _, .answered hbuilt hadmission hsend hsettled hpost⟩

theorem endingOf_preAll (route : Route) (h : Ran Filter.pre .pre chain w x ran at_ w₁ x₁) :
    ∃ ended, Filter.preAll chain w x = (ended, w₁, x₁) ∧
      endingOf route ended = at_.map fun s => endingOn route (some (.before s)) := by
  refine ⟨_, h.runHooks_eq .preFilter, ?_⟩
  match at_ with
  | none | some (_, .error _) | some (_, .panicked) | some (_, .givenUp) => rfl

theorem endingOf_postAll (route : Route)
    (h : Ran Filter.post .post chain.reverse w x ran at_ w₁ x₁) :
    ∃ ended, Filter.postAll chain w x = (ended, w₁, x₁) ∧
      (endingOf route ended).getD .answered = endingOn route (at_.map .after) := by
  refine ⟨_, h.runHooks_eq .postFilter, ?_⟩
  match at_ with
  | none | some (_, .error _) | some (_, .panicked) | some (_, .givenUp) => rfl

/-- A request that could be built goes to the route, and the exchange ends by what becomes of it. -/
theorem handle_of_built {globals : List Filter} (h : Built (globals ++ route.filters) w x o w₁ x₂) :
    handle client globals route w x = match guarded client route x₂ o w₁ with
      | (.error _, w) => (.panicked, w, x₂)
      | (.ok (.error e), w) => (.failed (.route route.id (backendError e)), w, x₂)
      | (.ok .panicked, w) => (.panicked, w, x₂)
      | (.ok .dropped, w) => (.dropped, w, x₂)
      | (.ok (.value r _), w) =>
        let (after, w, x) := Filter.postAll (globals ++ route.filters) w (x₂.answeredBy r)
        ((endingOf route after).getD .answered, w, x) := by
  obtain ⟨x₁, hran, hout⟩ := h
  obtain ⟨ended, hpre, hended⟩ := endingOf_preAll route hran
  rcases hguarded : guarded client route x₂ o w₁ with ⟨panic | fate, w₂⟩
  · simp only [handle, hpre, hended, Option.map_none, hout, hguarded]
  · cases fate <;> simp only [handle, hpre, hended, Option.map_none, hout, hguarded]

/-- The course of an exchange is the one that the gateway takes. -/
theorem Course.handle_eq {globals : List Filter}
    (h : Course client route (globals ++ route.filters) w x t stop w' x') :
    handle client globals route w x = (endingOn route stop, w', x') := by
  cases h with
  | stoppedBefore hran =>
    obtain ⟨ended, hpre, hended⟩ := endingOf_preAll route hran
    simp only [handle, hpre, hended, Option.map_some]
  | unbuilt hran hout =>
    obtain ⟨ended, hpre, hended⟩ := endingOf_preAll route hran
    simp only [handle, hpre, hended, Option.map_none, hout, endingOn]
  | @unasked o _ _ _ hbuilt hpanic =>
    obtain ⟨w₂, hguarded, -⟩ := guarded_of_panic client x' o hpanic
    simp only [handle_of_built hbuilt, hguarded, endingOn]
  | @refused o _ _ _ hbuilt hrefused =>
    obtain ⟨w₂, hguarded, -⟩ := guarded_of_refused client x' o hrefused
    simp only [handle_of_built hbuilt, hguarded, endingOn, backendError_eq]
  | @unanswered o _ w₁ _ hbuilt hadmitted hmissing hreported =>
    obtain ⟨w₂, hguarded, -⟩ := guarded_of_admitted client x' o hadmitted
    rw [fate_call] at hguarded
    -- what the sending came to is both why there is no response and how the call ends
    match hsend : (send client x' o w₁).1 with
    | .givenUp =>
      rw [hsend] at hmissing hguarded
      cases hmissing
      simp only [handle_of_built hbuilt, hguarded, Breaker.CallFate.delivered, endingOn]
    | .done _ (.error e) =>
      rw [hsend] at hmissing hguarded
      cases hmissing
      obtain hsettled := hreported.resolve_left nofun
      rw [hsettled, Breaker.CallFate.delivered_ok] at hguarded
      simp only [handle_of_built hbuilt, hguarded, endingOn, backendError_eq]
    | .done _ (.ok .panicked) =>
      rw [hsend] at hmissing hguarded
      cases hmissing
      obtain hsettled := hreported.resolve_left nofun
      rw [hsettled, Breaker.CallFate.delivered_ok] at hguarded
      simp only [handle_of_built hbuilt, hguarded, endingOn]
    | .done _ (.ok (.response _)) =>
      rw [hsend] at hmissing
      cases hmissing
  | @unreported o _ w₁ _ hbuilt hadmitted hmissing hsettled =>
    obtain ⟨w₂, hguarded, -⟩ := guarded_of_admitted client x' o hadmitted
    rw [fate_call, hsettled] at hguarded
    -- a caller that still waits gets the panic, whatever the sending came to
    match hsend : (send client x' o w₁).1 with
    | .givenUp =>
      rw [hsend] at hmissing
      exact absurd rfl hmissing
    | .done _ (.error e) | .done _ (.ok .panicked) | .done _ (.ok (.response _)) =>
      rw [hsend] at hguarded
      simp only [handle_of_built hbuilt, hguarded, Breaker.CallFate.delivered, Except.map, endingOn]
  | @answered o _ _ _ _ _ _ x₂ _ hbuilt hadmitted hsend hsettled hafter =>
    obtain ⟨w₂, hguarded, -⟩ := guarded_of_admitted client x₂ o hadmitted
    obtain ⟨ended', hpost, hended'⟩ := endingOf_postAll route hafter
    rw [fate_call, hsend, hsettled, Breaker.CallFate.delivered_ok] at hguarded
    rw [hguarded] at hpost
    simp only [handle_of_built hbuilt, hguarded, hpost, hended']

/-- Only the end of a generation that cannot be told breaks off an exchange at its breaker. -/
theorem Course.of_overflowed (h : Course client route chain w x t (some .overflowed) w' x') :
    ∃ b, route.breaker = some b ∧ ∃ s, Breaker.expiryFits b.policy s w'.clock.now = false := by
  generalize hstop : some Stop.overflowed = stop at h
  cases h with
  | @unasked o _ _ _ _ hpanic =>
    obtain ⟨w₂, hguarded, -, hclock⟩ := guarded_of_panic client x' o hpanic
    rw [hguarded, hclock]
    exact overflow_of_admission hpanic
  | @unreported o _ _ _ _ hadmitted _ hpanic =>
    obtain ⟨w₂, hguarded, -, hclock⟩ := guarded_of_admitted client x' o hadmitted
    rw [hguarded, hclock]
    exact overflow_of_settlement hpanic
  | stoppedBefore | unbuilt | refused => cases hstop
  | unanswered _ _ hmissing _ =>
    cases hstop
    rcases missing_cases hmissing with hcase | ⟨e, hcase⟩ | hcase <;> cases hcase
  | @answered _ _ _ _ stop _ _ _ _ _ _ _ _ _ => cases stop <;> cases hstop

/-- **The course of an exchange.** The gateway takes an exchange along the one course that it has with
the filters of all routes before those of its own. What it notes is what has run on that course: hooks
before the request from the first on, up to one that does not succeed; behind all of these the sending
of a request that could be built and that the breaker lets through; behind a response hooks after it
from the last on, up to one that does not succeed. The exchange is answered if nothing stopped it, and
otherwise ends as what stopped it says.

Hooks after the response run behind every response but one: where the breaker of the route overflows,
the exchange breaks off without an error. It overflows only if it has an end that cannot be told by
then. -/
theorem handle_course (client : Receiver) (globals : List Filter) (route : Route) (w : World)
    (x : Exchange) :
    let chain := globals ++ route.filters
    (∃ t stop w' x', Course client route chain w x t stop w' x') ∧
    ∀ t stop w' x', Course client route chain w x t stop w' x' →
      handle client globals route w x = (endingOn route stop, w', x') ∧
      (endingOn route stop = .answered ↔ stop = none) ∧
      w'.hooks = w.hooks ++ t.events ∧ t.Follows chain stop ∧
      (stop = some .overflowed →
        ∃ b, route.breaker = some b ∧
          ∃ s, Breaker.expiryFits b.policy s w'.clock.now = false) := by
  intro chain
  refine ⟨exists_course client route chain w x, fun t stop w' x' hcourse => ?_⟩
  exact ⟨hcourse.handle_eq, endingOn_eq_answered_iff, hcourse.hooks, hcourse.follows,
    fun hstop => (hstop ▸ hcourse).of_overflowed⟩

/-! ## A filter that fails after the response -/

/-- A filter that only fails after a response. -/
def failingAfter (label : String) (e : Error) : Filter :=
  .custom label Filter.finish fun w x => Filter.failWith w x e

/-- A route to `http://b/` with a filter that fails after the response behind one that does not. -/
def failingRoute : Route where
  id := "order"
  uri := { scheme := Url.http, host := some (.domain (Bytes.ofString "b")), path := [0x2F] }
  filters := [.inert "B", failingAfter "C" .canceled]

/-- The route with other filters. -/
def routeWith (filters : List Filter) : Route := { failingRoute with filters }

/-- Behind a hook that fails after the response none of the others runs. -/
theorem handle_course_failingAfter :
    let client := Script.receiver {}
    let globals := [Filter.inert "A"]
    let x := Exchange.begin_ failingRoute { url := failingRoute.uri } default
    ∃ t stop w' x',
      Course client failingRoute (globals ++ failingRoute.filters) default x t stop w' x' ∧
      handle client globals failingRoute default x =
        (.failed (.route "order" (.postFilter "C" .canceled)), w', x') ∧
      t.events = [.pre "A", .pre "B", .pre "C", .send, .post "C"] := by
  intro client globals x
  obtain ⟨⟨t, stop, w', x', hcourse⟩, hall⟩ :=
    handle_course client globals failingRoute default x
  obtain ⟨heq, -, hhooks, -, -⟩ := hall t stop w' x' hcourse
  have hending : (handle client globals failingRoute default x).1 =
      .failed (.route "order" (.postFilter "C" .canceled)) := by decide +kernel
  have hevents : (handle client globals failingRoute default x).2.1.hooks =
      [.pre "A", .pre "B", .pre "C", .send, .post "C"] := by decide +kernel
  refine ⟨t, stop, w', x', hcourse, ?_, ?_⟩
  · exact heq.trans (congrArg (·, w', x') ((congrArg Prod.fst heq).symm.trans hending))
  · rw [heq, hhooks] at hevents
    exact hevents

/-- The route with a breaker that one failure opens, for 10 ^ 19 s. -/
def overflowingRoute : Route :=
  let policy : BreakerPolicy :=
    { name := "order", timeout := Duration.ofSeconds 10000000000000000000
      trips := some (BreakerPolicy.consecutive 0) }
  { routeWith [.inert "A"] with breaker := some { policy, begun := Breaker.start policy 0 } }

/-- Behind a response that opens the breaker no hook runs, and nobody gets an error. -/
theorem response_meets_overflow :
    let client := Script.receiver { reply := .ok (.response { status := 503 }) }
    let x := Exchange.begin_ overflowingRoute { url := overflowingRoute.uri } default
    (match x.outgoing with
      | (.ok o, x₂) => (missing (send client x₂ o default).1).isNone
      | (.error _, _) => false) = true ∧
    (handle client [] overflowingRoute default x).1 = .panicked ∧
    (handle client [] overflowingRoute default x).2.1.hooks = [.pre "A", .send] := by
  decide +kernel

end Gatehouse.Gateway
