import Gatehouse.Breaker.GuardedCall
import Gatehouse.Proofs.Breaker.Operation

/-!
# Every admitted call is reported once

`Accounted` are the states that a guarded call comes into, whatever happens to it and to its breaker:
a call that is refused is neither polled nor reported, one that waits is not reported yet, and one
that is over is reported once, under the generation that has admitted it. What the caller gets goes by
what the report comes to (`Delivers`): a report that panics takes the place of what the call has come
to. `execute_eq_once` says that `execute` is a guarded call that is polled once, and dropped if it is
not ready then.
-/

namespace Gatehouse.Breaker

variable {α σ : Type} {p : BreakerPolicy} {judge : Judge α} {call : Nat → Polled α} {polled : Polled α}

/-- Whether judging what a call has come to panics. -/
def Judge.Panics (judge : Judge α) (panic : Panic) : Polled α → Prop
  | .value a => judge.classify a = .error panic ∨
    ∃ e, judge.classify a = .ok (some e) ∧ judge.forgives e = .error panic
  | .error e => judge.forgives e = .error panic
  | .pending | .panicked _ => False

/-- Whether what a call has come to is a success. -/
def Judge.Accepts (judge : Judge α) : Polled α → Prop
  | .value a => judge.classify a = .ok none ∨
    ∃ e, judge.classify a = .ok (some e) ∧ judge.forgives e = .ok true
  | .error e => judge.forgives e = .ok true
  | .pending | .panicked _ => False

/-- What the caller gets of what a call has come to: just that, unless judging or reporting it
panics. -/
inductive Delivers (judge : Judge α) : Polled α → Except Panic Unit → Reply α → Prop
  | value {a : α} : (∀ panic, ¬ judge.Panics panic (.value a)) →
      Delivers judge (.value a) (.ok ()) (.returned (.ok a))
  | error {e : Error} : (∀ panic, ¬ judge.Panics panic (.error e)) →
      Delivers judge (.error e) (.ok ()) (.returned (.error e))
  | panicked (panic : Panic) : Delivers judge (.panicked panic) (.ok ()) (.panicked panic)
  | judging {polled : Polled α} {panic : Panic} : judge.Panics panic polled →
      Delivers judge polled (.ok ()) (.panicked panic)
  | reporting {polled : Polled α} (broken : Panic) : (∀ panic, ¬ judge.Panics panic polled) →
      Delivers judge polled (.error broken) (.panicked broken)
  | both {polled : Polled α} {panic : Panic} (broken : Panic) : judge.Panics panic polled →
      Delivers judge polled (.error broken) .aborted

/-! ## Judging -/

theorem Judge.value_eq_error_iff {a : α} {panic : Panic} :
    judge.value a = .error panic ↔ judge.Panics panic (.value a) := by
  rw [Judge.value, Judge.Panics]
  cases judge.classify a with
  | error reason => simp
  | ok failure? => cases failure? <;> simp

theorem Judge.value_eq_true_iff {a : α} : judge.value a = .ok true ↔ judge.Accepts (.value a) := by
  rw [Judge.value, Judge.Accepts]
  cases judge.classify a with
  | error reason => simp
  | ok failure? => cases failure? <;> simp

/-! ## A ticket reports once -/

namespace GuardedCall

variable {g : GuardedCall α} {b : Breaker} {generation n : Nat}

/-- The guarded call with one report more. -/
def reporting (p : BreakerPolicy) (g : GuardedCall α) (generation : Nat) (success : Bool)
    (now : Duration) : GuardedCall α :=
  let (result, breaker) := settle p g.breaker generation success now
  { g with breaker, reports := g.reports ++ [⟨generation, success, now, result⟩] }

/-- A verdict is reported once: letting go of the ticket reports nothing more. -/
theorem conclude_ok (p : BreakerPolicy) (g : GuardedCall α) (generation : Nat) (now : Duration)
    (success : Bool) (reply : Reply α) :
    conclude p g { generation } now (.ok success) reply =
      { reporting p g generation success now with
        stage := .replied (match (settle p g.breaker generation success now).1 with
          | .ok () => reply
          | .error panic => .panicked panic) } := by
  rcases hsettle : settle p g.breaker generation success now with ⟨result | result, breaker⟩ <;>
    simp [conclude, finish, release, unwind, reporting, hsettle]

/-- Without a verdict letting go of the ticket reports a failure. -/
theorem conclude_error (p : BreakerPolicy) (g : GuardedCall α) (generation : Nat) (now : Duration)
    (panic : Panic) (reply : Reply α) :
    conclude p g { generation } now (.error panic) reply =
      { reporting p g generation false now with
        stage := .replied (match (settle p g.breaker generation false now).1 with
          | .ok () => .panicked panic
          | .error _ => .aborted) } := by
  rcases hsettle : settle p g.breaker generation false now with ⟨result | result, breaker⟩ <;>
    simp [conclude, finish, release, unwind, reporting, hsettle]

/-- A verdict on what a call has come to is reported once, and the caller gets what it should. -/
theorem conclude_delivers (p : BreakerPolicy) (g : GuardedCall α) (polled : Polled α)
    {verdict : Except Panic Bool} {reply : Reply α} (generation : Nat) (now : Duration)
    (haccepts : verdict = .ok true ↔ judge.Accepts polled)
    (hpanics : ∀ panic, verdict = .error panic ↔ judge.Panics panic polled)
    (hreply : (∀ panic, ¬ judge.Panics panic polled) → Delivers judge polled (.ok ()) reply) :
    ∃ got success, conclude p g { generation } now verdict reply =
        { reporting p g generation success now with stage := .replied got } ∧
      (success = true ↔ judge.Accepts polled) ∧
      Delivers judge polled (settle p g.breaker generation success now).1 got := by
  cases verdict with
  | ok success =>
    have hcalm : ∀ panic, ¬ judge.Panics panic polled := fun panic hpanic => by
      cases (hpanics panic).mpr hpanic
    refine ⟨_, success, conclude_ok p g generation now success reply, ?_, ?_⟩
    · rw [← haccepts, Except.ok.injEq]
    · cases (settle p g.breaker generation success now).1 with
      | ok => exact hreply hcalm
      | error broken => exact .reporting broken hcalm
  | error panic =>
    have hpanic : judge.Panics panic polled := (hpanics panic).mp rfl
    refine ⟨_, false, conclude_error p g generation now panic reply, ?_, ?_⟩
    · rw [← haccepts]
      simp
    · cases (settle p g.breaker generation false now).1 with
      | ok => exact .judging hpanic
      | error broken => exact .both broken hpanic

/-- A call that is polled has to wait, or it is reported once and its caller gets what it should. -/
theorem proceed_cases (p : BreakerPolicy) (judge : Judge α) (call : Nat → Polled α)
    (g : GuardedCall α) (generation : Nat) (meanwhile : Breaker → Breaker) (later : Duration) :
    let polled := { g with breaker := meanwhile g.breaker, polls := g.polls + 1 }
    (call g.polls = .pending ∧ proceed p judge call g { generation } meanwhile later =
      { polled with stage := .waiting { generation } }) ∨
    (call g.polls ≠ .pending ∧ ∃ reply success,
      proceed p judge call g { generation } meanwhile later =
        { reporting p polled generation success later with stage := .replied reply } ∧
      (success = true ↔ judge.Accepts (call g.polls)) ∧
      Delivers judge (call g.polls) (settle p polled.breaker generation success later).1 reply) := by
  intro polled
  rw [proceed]
  cases call g.polls with
  | pending => exact .inl ⟨rfl, rfl⟩
  | value a =>
    exact .inr ⟨nofun, conclude_delivers p polled (.value a) generation later
      Judge.value_eq_true_iff (fun _ => Judge.value_eq_error_iff) Delivers.value⟩
  | error e =>
    exact .inr ⟨nofun, conclude_delivers p polled (.error e) generation later Iff.rfl
      (fun _ => Iff.rfl) Delivers.error⟩
  | panicked panic =>
    exact .inr ⟨nofun, conclude_delivers p polled (.panicked panic) generation later
      (by simp [Judge.Accepts]) (by simp [Judge.Panics]) fun _ => .panicked panic⟩

/-! ## Every run -/

/-- A panic is possible where the end of a generation cannot be told, and nowhere else. -/
def Timely (p : BreakerPolicy) (now : Duration) (result : Except Panic Unit) : Prop :=
  result = .ok () ∨ (result = .error .overflow ∧ ∃ s, expiryFits p s now = false)

/-- What a guarded call can have come to. -/
inductive Accounted (p : BreakerPolicy) (judge : Judge α) (call : Nat → Polled α) :
    GuardedCall α → Prop
  | unstarted (b : Breaker) : Accounted p judge call ⟨b, .unstarted, none, 0, []⟩
  | unasked (b : Breaker) : Accounted p judge call ⟨b, .dropped (.ok ()), none, 0, []⟩
  | unadmitted (b : Breaker) : Accounted p judge call ⟨b, .replied (.panicked .overflow), none, 0, []⟩
  | refused (b : Breaker) (e : Error) :
      Accounted p judge call ⟨b, .replied (.returned (.error e)), some (.error e), 0, []⟩
  | waiting (b : Breaker) (generation : Nat) {n : Nat} : (∀ i < n, call i = .pending) →
      Accounted p judge call ⟨b, .waiting { generation }, some (.ok generation), n, []⟩
  | dropped (b : Breaker) (generation : Nat) {n : Nat} {now : Duration} {result : Except Panic Unit} :
      (∀ i < n, call i = .pending) → Timely p now result →
      Accounted p judge call
        ⟨b, .dropped result, some (.ok generation), n, [⟨generation, false, now, result⟩]⟩
  | ended (b : Breaker) (generation : Nat) {n : Nat} {reply : Reply α} {success : Bool}
      {now : Duration} {result : Except Panic Unit} : (∀ i < n, call i = .pending) →
      call n ≠ .pending → (success = true ↔ judge.Accepts (call n)) → Timely p now result →
      Delivers judge (call n) result reply →
      Accounted p judge call
        ⟨b, .replied reply, some (.ok generation), n + 1, [⟨generation, success, now, result⟩]⟩

/-- Polling an admitted call makes it wait on, or ends it with its one report. -/
theorem accounted_proceed (b : Breaker) (hpending : ∀ i < n, call i = .pending)
    (meanwhile : Breaker → Breaker) (later : Duration) (stage : Stage α) :
    Accounted p judge call
      (proceed p judge call ⟨b, stage, some (.ok generation), n, []⟩ { generation } meanwhile
        later) := by
  rcases proceed_cases p judge call ⟨b, stage, some (.ok generation), n, []⟩ generation meanwhile
    later with ⟨hwaits, heq⟩ | ⟨hready, reply, success, heq, haccepts, hdelivers⟩
  · rw [heq]
    refine .waiting _ _ fun i hi => ?_
    rcases Nat.lt_succ_iff_lt_or_eq.mp hi with hi | rfl
    · exact hpending i hi
    · exact hwaits
  · rw [heq]
    exact .ended _ _ hpending hready haccepts (settle_result_cases p _ generation success later)
      hdelivers

/-- The breaker may be changed by others at any time. -/
theorem Accounted.others (h : Accounted p judge call g) (b : Breaker) :
    Accounted p judge call { g with breaker := b } := by
  cases h with
  | unstarted => exact .unstarted b
  | unasked => exact .unasked b
  | unadmitted => exact .unadmitted b
  | refused _ e => exact .refused b e
  | waiting _ generation hpending => exact .waiting b generation hpending
  | dropped _ generation hpending htimely => exact .dropped b generation hpending htimely
  | ended _ generation hpending hready haccepts htimely hdelivers =>
    exact .ended b generation hpending hready haccepts htimely hdelivers

theorem Accounted.step (h : Accounted p judge call g) (event : Event) :
    Accounted p judge call (g.step p judge call event) := by
  have hkept := h
  cases event with
  | poll now meanwhile later =>
    cases h with
    | unstarted b =>
      simp only [GuardedCall.step]
      rcases hentered : enter p b now with ⟨admission, entered⟩
      rcases admission with panic | e | generation
      · have hpanic := enter_result_cases p b now
        rw [hentered] at hpanic
        rcases hpanic with ⟨answer, hanswer⟩ | ⟨hoverflow, -⟩
        · cases hanswer
        · cases hoverflow
          exact .unadmitted entered
      · exact .refused _ _
      · exact accounted_proceed _ (fun i hi => absurd hi (Nat.not_lt_zero i)) meanwhile later _
    | waiting b generation hpending => exact accounted_proceed b hpending meanwhile later _
    | unasked | unadmitted | refused | dropped | ended => exact hkept
  | drop now =>
    cases h with
    | unstarted b => exact .unasked b
    -- the ticket has not reported yet, so that letting go of it does
    | waiting b generation hpending =>
      exact .dropped _ generation hpending (settle_result_cases p b generation false now)
    | unasked | unadmitted | refused | dropped | ended => exact hkept
  | others change => exact h.others (change g.breaker)

theorem Accounted.run (h : Accounted p judge call g) (events : List Event) :
    Accounted p judge call (g.run p judge call events) := by
  -- on the events, from whatever state the call has come to
  induction events generalizing g with
  | nil => exact h
  | cons event events ih => exact ih (h.step event)

theorem Accounted.of_none (h : Accounted p judge call g) (hnone : g.admission = none) :
    g.polls = 0 ∧ g.reports = [] := by
  cases h with
  | unstarted | unasked | unadmitted => exact ⟨rfl, rfl⟩
  | refused | waiting | dropped | ended => cases hnone

theorem Accounted.of_refused {e : Error} (h : Accounted p judge call g)
    (hrefused : g.admission = some (.error e)) :
    g.polls = 0 ∧ g.reports = [] ∧ g.stage = .replied (.returned (.error e)) := by
  cases h with
  | refused => cases hrefused; exact ⟨rfl, rfl, rfl⟩
  | unstarted | unasked | unadmitted | waiting | dropped | ended => cases hrefused

theorem Accounted.of_admitted (h : Accounted p judge call g)
    (hadmitted : g.admission = some (.ok generation)) :
    (g.stage = .waiting { generation } ∧ g.reports = [] ∧ ∀ i < g.polls, call i = .pending) ∨
    ∃ success now result, g.reports = [⟨generation, success, now, result⟩] ∧ Timely p now result ∧
      ((g.stage = .dropped result ∧ success = false ∧ ∀ i < g.polls, call i = .pending) ∨
      ∃ n reply, g.stage = .replied reply ∧ g.polls = n + 1 ∧ (∀ i < n, call i = .pending) ∧
        call n ≠ .pending ∧ (success = true ↔ judge.Accepts (call n)) ∧
        Delivers judge (call n) result reply) := by
  cases h with
  | unstarted | unasked | unadmitted | refused => cases hadmitted
  | waiting _ _ hpending =>
    cases hadmitted
    exact .inl ⟨rfl, rfl, hpending⟩
  | dropped _ _ hpending htimely =>
    cases hadmitted
    exact .inr ⟨_, _, _, rfl, htimely, .inl ⟨rfl, rfl, hpending⟩⟩
  | ended _ _ hpending hready haccepts htimely hdelivers =>
    cases hadmitted
    exact .inr ⟨_, _, _, rfl, htimely,
      .inr ⟨_, _, rfl, rfl, hpending, hready, haccepts, hdelivers⟩⟩

/-! ## Coming to an end -/

theorem unwind_ne_waiting (g : GuardedCall α) (t t' : Ticket) (now : Duration) (panic : Panic) :
    (unwind p g t now panic).stage ≠ .waiting t' := by
  rw [unwind]
  split <;> exact nofun

/-- A call that is judged does not wait on. -/
theorem conclude_ne_waiting (g : GuardedCall α) (t t' : Ticket) (now : Duration)
    (verdict : Except Panic Bool) (reply : Reply α) :
    (conclude p g t now verdict reply).stage ≠ .waiting t' := by
  rw [conclude.eq_def]
  split
  · exact unwind_ne_waiting _ _ _ _ _
  · split
    · exact unwind_ne_waiting _ _ _ _ _
    · split <;> exact nofun

/-- A call that is ready does not wait on. -/
theorem proceed_ne_waiting (g : GuardedCall α) (hready : call g.polls ≠ .pending) (t t' : Ticket)
    (meanwhile : Breaker → Breaker) (later : Duration) :
    (proceed p judge call g t meanwhile later).stage ≠ .waiting t' := by
  rw [proceed]
  cases hpolled : call g.polls with
  | pending => exact absurd hpolled hready
  | value a => exact conclude_ne_waiting _ _ _ _ _ _
  | error e => exact conclude_ne_waiting _ _ _ _ _ _
  | panicked panic => exact conclude_ne_waiting _ _ _ _ _ _

/-- A call that is polled when it is ready, or dropped, waits no longer. -/
theorem step_ne_waiting (g : GuardedCall α) (t : Ticket) :
    (∀ now, (g.step p judge call (.drop now)).stage ≠ .waiting t) ∧
    (call g.polls ≠ .pending → ∀ now meanwhile later,
      (g.step p judge call (.poll now meanwhile later)).stage ≠ .waiting t) := by
  constructor
  · intro now
    rw [step]
    split
    · exact nofun
    · exact nofun
    · next hstage => rw [hstage]; exact nofun
    · next hstage => rw [hstage]; exact nofun
  · intro hready now meanwhile later
    rw [step]
    split
    · split
      · exact nofun
      · exact nofun
      · refine proceed_ne_waiting _ ?_ _ _ _ _
        exact hready
    · exact proceed_ne_waiting _ hready _ _ _ _
    · next hstage => rw [hstage]; exact nofun
    · next hstage => rw [hstage]; exact nofun

end GuardedCall

/-! ## A call that nothing interrupts -/

/-- The judge of a policy, for values that are classified without a panic. -/
def Judge.ofPolicy (p : BreakerPolicy) (classify : α → Option Error) : Judge α where
  classify a := .ok (classify a)
  forgives e := .ok (p.forgivesError e)

/-- The fate of a call by what it does when it is polled: one that is not ready is dropped. -/
def CallFate.ofPolled (classify : α → Option Error) : Polled α → CallFate α
  | .pending => .dropped
  | .value a => .value a (classify a)
  | .error e => .error e
  | .panicked _ => .panicked

/-- A call that is polled once, and dropped if it is not ready when it has run. -/
def GuardedCall.once (p : BreakerPolicy) (classify : α → Option Error) (b : Breaker)
    (now finish : Duration) (polled : Polled α) : GuardedCall α :=
  GuardedCall.run p (.ofPolicy p classify) (fun _ => polled) { breaker := b }
    [.poll now id finish, .drop finish]

/-- What the reports of a call have come to: the first that has panicked. -/
def GuardedCall.result (g : GuardedCall α) : Except Panic Unit := g.reports.forM Report.result

/-- What comes of executing a call, by what comes of polling it once. -/
def GuardedCall.execution (g : GuardedCall α) (fate : CallFate α) (s s' : σ) :
    Except Panic (Except Error (CallFate α)) × Breaker × σ :=
  match g.admission, g.stage with
  | some (.error e), _ => (.ok (.error e), g.breaker, s)
  | none, .replied (.panicked panic) => (.error panic, g.breaker, s)
  | some (.ok _), _ | none, _ => ((fate.delivered g.result).map .ok, g.breaker, s')

theorem once_of_panic {classify : α → Option Error} {b entered : Breaker} {now : Duration}
    {panic : Panic} (h : enter p b now = (.error panic, entered)) (finish : Duration)
    (polled : Polled α) :
    GuardedCall.once p classify b now finish polled =
      ⟨entered, .replied (.panicked panic), none, 0, []⟩ := by
  simp only [GuardedCall.once, GuardedCall.run, List.foldl_cons, List.foldl_nil, GuardedCall.step, h]

theorem once_of_refused {classify : α → Option Error} {b entered : Breaker} {now : Duration}
    {e : Error} (h : enter p b now = (.ok (.error e), entered)) (finish : Duration)
    (polled : Polled α) :
    GuardedCall.once p classify b now finish polled =
      ⟨entered, .replied (.returned (.error e)), some (.error e), 0, []⟩ := by
  simp only [GuardedCall.once, GuardedCall.run, List.foldl_cons, List.foldl_nil, GuardedCall.step, h]

theorem GuardedCall.result_reporting {g : GuardedCall α} (h : g.reports = []) (generation : Nat)
    (success : Bool) (now : Duration) :
    (GuardedCall.reporting p g generation success now).result =
      (settle p g.breaker generation success now).1 := by
  simp only [GuardedCall.result, GuardedCall.reporting, h, List.nil_append]
  cases (settle p g.breaker generation success now).1 <;> rfl

theorem Judge.value_ofPolicy (p : BreakerPolicy) (classify : α → Option Error) (a : α) :
    (Judge.ofPolicy p classify).value a = .ok ((CallFate.value a (classify a)).succeeds p) := by
  simp only [Judge.value, Judge.ofPolicy]
  cases classify a <;> rfl

/-- A call that is admitted and polled once is reported by what it has come to. -/
theorem once_of_admitted (classify : α → Option Error) {b entered : Breaker} {now : Duration}
    {generation : Nat} (h : enter p b now = (.ok (.ok generation), entered)) (finish : Duration)
    (polled : Polled α) :
    let g := GuardedCall.once p classify b now finish polled
    let settled := settle p entered generation
      ((CallFate.ofPolled classify polled).succeeds p) finish
    g.admission = some (.ok generation) ∧ g.breaker = settled.2 ∧ g.result = settled.1 := by
  simp only [GuardedCall.once, GuardedCall.run, List.foldl_cons, List.foldl_nil, GuardedCall.step, h]
  cases polled with
  | pending =>
    simp only [GuardedCall.proceed]
    exact ⟨rfl, rfl, GuardedCall.result_reporting rfl generation false finish⟩
  | error e =>
    simp only [GuardedCall.proceed, Judge.ofPolicy, GuardedCall.conclude_ok]
    exact ⟨rfl, rfl, GuardedCall.result_reporting rfl generation _ finish⟩
  | panicked panic =>
    simp only [GuardedCall.proceed, GuardedCall.conclude_ok]
    exact ⟨rfl, rfl, GuardedCall.result_reporting rfl generation _ finish⟩
  | value a =>
    simp only [GuardedCall.proceed, Judge.value_ofPolicy, GuardedCall.conclude_ok]
    exact ⟨rfl, rfl, GuardedCall.result_reporting rfl generation _ finish⟩

/-- Executing a call is polling it once. -/
theorem execute_eq_once (p : BreakerPolicy) (classify : α → Option Error) (b : Breaker)
    (now finish : Duration) (s s' : σ) (polled : Polled α) :
    execute p b now s (fun _ => (finish, .ofPolled classify polled, s')) =
      (GuardedCall.once p classify b now finish polled).execution (.ofPolled classify polled) s s' := by
  rcases henter : enter p b now with ⟨panic | e | generation, entered⟩
  · rw [once_of_panic henter]
    simp only [execute, henter, GuardedCall.execution]
  · rw [once_of_refused henter]
    simp only [execute, henter, GuardedCall.execution]
  · obtain ⟨hadmission, hbreaker, hresult⟩ := once_of_admitted classify henter finish polled
    simp only [execute, henter, GuardedCall.execution, hadmission, hbreaker, hresult]

/-! ## The reports of a guarded call -/

/-- **Every admitted call is reported once.** Whatever is done to a guarded call and to its breaker, a
call that the breaker refuses is never polled and never reported, and its caller gets the refusal. A
call that is admitted is not reported as long as it waits. Once it is over exactly one outcome is
reported, under the generation that has admitted it: a failure if it was dropped, and otherwise
whether what the call has come to is a success, which its caller gets as it is, or else the panic of
who judged it. A call is over as soon as it is dropped, or polled when it is ready. Executing a call is
polling it once.

The caller gets this exactly if the report does not panic. A report panics only where the end of a
generation that it begins cannot be told, and then the caller gets that panic, or none if judging has
panicked before. -/
theorem admitted_reported_once (p : BreakerPolicy) (judge : Judge α) (call : Nat → Polled α)
    (b : Breaker) (events : List Event) :
    let g := GuardedCall.run p judge call { breaker := b } events
    (g.admission = none → g.polls = 0 ∧ g.reports = []) ∧
    (∀ e, g.admission = some (.error e) →
      g.polls = 0 ∧ g.reports = [] ∧ g.stage = .replied (.returned (.error e))) ∧
    (∀ generation, g.admission = some (.ok generation) →
      (g.stage = .waiting { generation } ∧ g.reports = [] ∧ ∀ i < g.polls, call i = .pending) ∨
      ∃ success now result, g.reports = [⟨generation, success, now, result⟩] ∧
        (result = .ok () ∨ (result = .error .overflow ∧ ∃ s, expiryFits p s now = false)) ∧
        ((g.stage = .dropped result ∧ success = false ∧ ∀ i < g.polls, call i = .pending) ∨
        ∃ n reply, g.stage = .replied reply ∧ g.polls = n + 1 ∧ (∀ i < n, call i = .pending) ∧
          call n ≠ .pending ∧ (success = true ↔ judge.Accepts (call n)) ∧
          Delivers judge (call n) result reply)) ∧
    (∀ ticket,
      (∀ now, (g.step p judge call (.drop now)).stage ≠ .waiting ticket) ∧
      (call g.polls ≠ .pending → ∀ now meanwhile later,
        (g.step p judge call (.poll now meanwhile later)).stage ≠ .waiting ticket)) ∧
    ∀ (classify : α → Option Error) (now finish : Duration) (s s' : σ) (polled : Polled α),
      execute p b now s (fun _ => (finish, .ofPolled classify polled, s')) =
        (GuardedCall.once p classify b now finish polled).execution (.ofPolled classify polled)
          s s' := by
  intro g
  have h : GuardedCall.Accounted p judge call g := (GuardedCall.Accounted.unstarted b).run events
  exact ⟨h.of_none, fun _ => h.of_refused, fun _ => h.of_admitted, g.step_ne_waiting,
    fun classify now finish s s' polled => execute_eq_once p classify b now finish s s' polled⟩

/-- A classifier that panics reports a failure, which opens a breaker that one failure trips, and the
caller gets the panic. -/
example :
    let p : BreakerPolicy := { name := "backend", trips := some (BreakerPolicy.consecutive 0) }
    let judge : Judge Nat := { classify := fun _ => .error ⟨"bug"⟩, forgives := fun _ => .ok true }
    let g := GuardedCall.run p judge (fun _ => .value 200) { breaker := start p 0 } [.poll 0 id 1]
    g.stage = .replied (.panicked ⟨"bug"⟩) ∧ g.reports = [⟨0, false, 1, .ok ()⟩] ∧
      g.breaker.state = .opened :=
  ⟨rfl, rfl, rfl⟩

/-- A response that opens a breaker for 10 ^ 19 s does not come back to its caller, who gets the panic
of the report. -/
theorem overflowing_report_hides_value :
    let p : BreakerPolicy :=
      { name := "backend", timeout := Duration.ofSeconds 10000000000000000000
        trips := some (BreakerPolicy.consecutive 0) }
    let judge : Judge Nat :=
      { classify := fun status => .ok (some (.backendStatus status)), forgives := fun _ => .ok false }
    let g := GuardedCall.run p judge (fun _ => .value 503) { breaker := start p 0 } [.poll 0 id 1]
    g.stage = .replied (.panicked .overflow) ∧ g.reports = [⟨0, false, 1, .error .overflow⟩] ∧
      g.breaker.state = .opened :=
  ⟨rfl, rfl, rfl⟩

end Gatehouse.Breaker
