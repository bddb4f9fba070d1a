import Gatehouse.Proofs.Filter.Response

/-!
# Chains without their loggers

A logger captures the body of a request and leaves the exchange as it is otherwise, and no other filter
can tell whether the body is captured. `Ran.unlogged` says that the hooks before the request of a chain
leave what those of the chain without its loggers leave, up to the body and to the time that has passed.
A rate limiter behind a logger may find that time has passed: it decides alike where it reads the clock
as the chain without loggers has it read.
-/

namespace Gatehouse

/-! ## Being disturbed -/

/-- Whether an error is that of an interruption or of a body that cannot be read. -/
def Error.IsDisturbance : Error → Prop
  | .deadlineExceeded | .canceled | .body _ => True
  | _ => False

theorem Error.IsInterruption.isDisturbance {e : Error} (h : e.IsInterruption) : e.IsDisturbance := by
  cases e with
  | deadlineExceeded => trivial
  | canceled => trivial
  | _ => exact h.elim

/-- Under the notes on filter and route it still is a disturbance. -/
theorem Error.IsDisturbance.root {e : Error} (h : e.IsDisturbance) : e.root.IsDisturbance := by
  cases e with
  | deadlineExceeded => trivial
  | canceled => trivial
  | body reason => trivial
  | _ => exact h.elim

/-! ## Bodies that are logged -/

namespace Body

variable {b b' after : Body} {now finish now₀ : Instant} {limit : Option Instant}

/-- The errors of a capture within a scope are disturbances. -/
theorem isDisturbance_of_capture {s : Scope} {gone : Option Instant} {e : Error}
    (h : s.run now gone b (b.capture now) = (.done finish (.error e), after)) :
    e.IsDisturbance := by
  by_cases hinterruption : e.IsInterruption
  · exact hinterruption.isDisturbance
  · have hresult : ∀ e', (Except.error e : Except Error Unit) = .error e' → ¬ e'.IsInterruption := by
      intro e' he
      cases he
      exact hinterruption
    obtain ⟨-, hcapture⟩ := Scope.operation_of_run h hresult
    rw [capture] at hcapture
    split at hcapture
    · cases hcapture
    · cases hcapture
    · split at hcapture <;> cases hcapture
      trivial

/-- What loggers make of a body since an instant: they leave it as it is, in no time, or they keep its
content, which could be read then. -/
inductive Logged (b : Body) (now₀ : Instant) (limit : Option Instant) : Instant → Body → Prop
  | untouched : Logged b now₀ limit now₀ b
  | kept {now : Instant} {after : Body} : after.captured = some b.content → b.Readable now₀ limit →
      Logged b now₀ limit now after

theorem Logged.content_eq (h : Logged b now₀ limit now b') : b'.content = b.content := by
  cases h with
  | untouched => rfl
  | kept hcaptured _ => exact content_of_captured hcaptured

end Body

/-! ## Worlds and exchanges up to what loggers do -/

/-- Two worlds that filters other than loggers cannot tell apart, unless they read the clock. -/
structure World.Agrees (w w' : World) : Prop where
  clockRuns : w.clockRuns = w'.clockRuns
  gone : w.gone = w'.gone
  limiters : w.limiters = w'.limiters
  breakers : w.breakers = w'.breakers

namespace World.Agrees

variable {w w' w'' : World}

theorem symm (h : w.Agrees w') : w'.Agrees w :=
  ⟨h.clockRuns.symm, h.gone.symm, h.limiters.symm, h.breakers.symm⟩

theorem trans (h : w.Agrees w') (h' : w'.Agrees w'') : w.Agrees w'' :=
  ⟨h.clockRuns.trans h'.clockRuns, h.gone.trans h'.gone, h.limiters.trans h'.limiters,
    h.breakers.trans h'.breakers⟩

/-- What is noted of hooks does not matter. -/
theorem withHooks (h : w.Agrees w') (hooks hooks' : List Hook) :
    Agrees { w with hooks } { w' with hooks := hooks' } :=
  ⟨h.clockRuns, h.gone, h.limiters, h.breakers⟩

/-- The time that has passed does not matter. -/
theorem moveTo (h : w.Agrees w') (t : Instant) : (w.moveTo t).Agrees w' :=
  ⟨h.clockRuns, h.gone, h.limiters, h.breakers⟩

/-- What is logged does not matter. -/
theorem emit (h : w.Agrees w') (e : Event) : (w.emit e).Agrees w' := by
  rw [World.emit]
  split
  · exact ⟨h.clockRuns, h.gone, h.limiters, h.breakers⟩
  · exact h

end World.Agrees

/-- Two worlds at the same time. -/
structure World.Simultaneous (w w' : World) : Prop where
  now : w.now = w'.now
  clock : w.clock = w'.clock
  clockRuns : w.clockRuns = w'.clockRuns
  gone : w.gone = w'.gone

theorem World.Simultaneous.refl (w : World) : w.Simultaneous w := ⟨rfl, rfl, rfl, rfl⟩

/-- Logging takes no time. -/
@[simp]
theorem World.now_emit (w : World) (e : Event) : (w.emit e).now = w.now := by
  rw [World.emit]
  split <;> rfl

/-- An exchange with another body of its request. -/
def Exchange.withBody (x : Exchange) (b : Body) : Exchange :=
  { x with request := { x.request with body := b } }

namespace Filter

/-- Whether a filter is a logger. -/
def isLogger : Filter → Bool
  | .logger .. => true
  | _ => false

/-- Whether a filter is a rate limiter, and so reads the clock. -/
def isLimiter : Filter → Bool
  | .rateLimit .. => true
  | _ => false

/-- A chain without its loggers. -/
def unlogged (chain : List Filter) : List Filter := chain.filter fun f => !f.isLogger

variable {f : Filter} {w w' v : World} {x y : Exchange} {b b' : Body} {now₀ now : Instant}
  {limit : Option Instant} {level : Level} {maxBody : Nat}

/-- A logger that succeeds leaves the exchange as it is, up to the body of its request. -/
theorem logged_logRequest {x₁ : Exchange} {w₁ : World}
    (hlogged : b.Logged now₀ limit w.now b')
    (hlimit : limit = x.scope.limit now₀ w.gone)
    (h : logRequest w (x.withBody b') level maxBody = (.passed, w₁, x₁)) :
    w₁.Agrees w ∧ ∃ b₁, x₁ = x.withBody b₁ ∧ b.Logged now₀ limit w₁.now b₁ := by
  unfold logRequest at h
  split at h
  · cases h
    exact ⟨⟨rfl, rfl, rfl, rfl⟩, b', rfl, hlogged⟩
  · match hrun : x.scope.run w.now w.gone b' (b'.capture w.now) with
    | (.givenUp, body) =>
      simp only [Exchange.withBody, hrun] at h
      cases h
    | (.done finish' (.error e), body) =>
      simp only [Exchange.withBody, hrun] at h
      cases h
    | (.done finish' (.ok ()), body) =>
      simp only [Exchange.withBody, hrun] at h
      cases h
      obtain ⟨-, hcapture⟩ := Scope.operation_of_run hrun nofun
      have hsame : w.Agrees w := ⟨rfl, rfl, rfl, rfl⟩
      refine ⟨(hsame.moveTo finish').emit _, body, rfl, ?_⟩
      rw [World.now_emit, World.now_moveTo]
      -- the first capture is of the body as it began, any later one changes nothing
      cases hlogged with
      | untouched =>
        rcases Body.capture_cases hcapture with ⟨hfinish, rfl⟩ | ⟨hcaptured, hreadable⟩
        · rw [hfinish]
          exact .untouched
        · rw [← hlimit] at hreadable
          exact .kept hcaptured hreadable
      | kept hcaptured hreadable =>
        simp only [Body.capture, hcaptured] at hcapture
        cases hcapture
        exact .kept hcaptured hreadable

/-- The errors of a logger are disturbances. -/
theorem isDisturbance_of_logRequest {e : Error} {w₁ : World} {x₁ : Exchange}
    (h : logRequest w x level maxBody = (.failed e, w₁, x₁)) : e.IsDisturbance := by
  unfold logRequest at h
  split at h
  · cases h
  · match hrun : x.scope.run w.now w.gone x.request.body (x.request.body.capture w.now) with
    | (.givenUp, body) =>
      simp only [hrun] at h
      cases h
    | (.done finish' (.ok ()), body) =>
      simp only [hrun] at h
      cases h
    | (.done finish' (.error e'), body) =>
      simp only [hrun] at h
      cases h
      exact Body.isDisturbance_of_capture hrun

theorem isDisturbance_of_logResponse {e : Error} {w₁ : World} {x₁ : Exchange}
    (h : logResponse w x level maxBody = (.failed e, w₁, x₁)) : e.IsDisturbance := by
  unfold logResponse at h
  split at h
  · cases h
  · split at h
    · cases h
    · next r hresponse =>
      match hrun : x.scope.run w.now w.gone r.body (r.body.capture w.now) with
      | (.givenUp, body) =>
        simp only [hrun] at h
        cases h
      | (.done finish' (.ok ()), body) =>
        simp only [hrun] at h
        cases h
      | (.done finish' (.error e'), body) =>
        simp only [hrun] at h
        cases h
        exact Body.isDisturbance_of_capture hrun

/-- A rewriting does the same whatever the body of the request. -/
theorem replacePath_withBody (pattern : Regex) (replacement : List Char) (x : Exchange) (b : Body) :
    replacePath pattern replacement (x.withBody b) =
        (replacePath pattern replacement x).withBody b ∧
      (replacePath pattern replacement x).scope = x.scope := by
  have hkept : keepFirstUrl (x.withBody b) = (keepFirstUrl x).withBody b ∧
      (keepFirstUrl x).scope = x.scope := by
    simp only [keepFirstUrl, Exchange.withBody]
    split <;> exact ⟨rfl, rfl⟩
  simp only [replacePath, hkept.1]
  simp only [Exchange.withBody]
  split <;> exact ⟨rfl, hkept.2⟩

/-- The hook of any other filter of the gateway takes no time. -/
theorem simultaneous_pre (hbuiltIn : f.IsBuiltIn) (hlogger : f.isLogger = false) (w : World)
    (x : Exchange) : (f.pre w x).2.1.Simultaneous w := by
  cases f with
  | header side name edit => cases side <;> exact .refl w
  | pathEdit => exact .refl w
  | logger => cases hlogger
  | rateLimit =>
    simp only [pre]
    split <;> exact ⟨rfl, rfl, rfl, rfl⟩
  | custom => exact hbuiltIn.elim

/-- It does the same whatever the body of the request, where a limiter reads the same clock. -/
theorem pre_withBody (hbuiltIn : f.IsBuiltIn) (hlogger : f.isLogger = false) (hagrees : w.Agrees w')
    (hclock : f.isLimiter = true → w.clock.now = w'.clock.now) (x : Exchange) (b b' : Body) :
    ∃ (ended : HookEnd) (v v' : World) (y : Exchange),
      f.pre w (x.withBody b) = (ended, v, y.withBody b) ∧
      f.pre w' (x.withBody b') = (ended, v', y.withBody b') ∧ v.Agrees v' ∧ y.scope = x.scope := by
  cases f with
  | header side name edit =>
    cases side with
    | request => exact ⟨_, _, _,
        { x with request := { x.request with headers := edit.apply name x.request.headers } },
        rfl, rfl, hagrees, rfl⟩
    | response => exact ⟨_, _, _, x, rfl, rfl, hagrees, rfl⟩
  | pathEdit pattern replacement =>
    refine ⟨.passed, w, w', replacePath pattern replacement x, ?_, ?_, hagrees,
      (replacePath_withBody pattern replacement x b).2⟩
    · rw [pre, (replacePath_withBody pattern replacement x b).1]
      rfl
    · rw [pre, (replacePath_withBody pattern replacement x b').1]
      rfl
  | logger level maxBody => cases hlogger
  | rateLimit place rate burst key =>
    have hkey (b : Body) : key.key (x.withBody b).request = key.key x.request := by
      cases key <;> rfl
    have hlimiter : w'.limiter place rate burst = w.limiter place rate burst := by
      rw [World.limiter, World.limiter, hagrees.limiters]
    have hkeep (l : Limiter Float) : (w.keepLimiter place l).Agrees (w'.keepLimiter place l) := by
      refine ⟨hagrees.clockRuns, hagrees.gone, ?_, hagrees.breakers⟩
      rw [World.keepLimiter, World.keepLimiter, hagrees.limiters]
    simp only [pre, hkey, hlimiter, ← hclock rfl]
    split
    · exact ⟨_, _, _, x, rfl, rfl, hkeep _, rfl⟩
    · exact ⟨_, _, _, x, rfl, rfl, hkeep _, rfl⟩
  | custom label before after => exact hbuiltIn.elim

/-! ## The hooks before the request -/

/-- The hook of a logger as the chain runs it. -/
theorem runHook_logger {x₁ : Exchange} {w₁ : World}
    (hlogged : b.Logged now₀ limit w.now b') (hlimit : limit = x.scope.limit now₀ w.gone)
    (h : runHook pre .pre (.logger level maxBody) w (x.withBody b') = (.passed, w₁, x₁)) :
    w₁.Agrees w ∧ ∃ b₁, x₁ = x.withBody b₁ ∧ b.Logged now₀ limit w₁.now b₁ := by
  obtain ⟨v, hpre, rfl⟩ := exists_of_runHook h
  obtain ⟨hagrees, hlogged₁⟩ := logged_logRequest (w := w.note _) hlogged hlimit hpre
  exact ⟨hagrees.withHooks _ _, hlogged₁⟩

/-- The hook of another filter as the chain runs it. -/
theorem simultaneous_runHook {ended : HookEnd} {w₁ : World} {x₁ : Exchange} (hbuiltIn : f.IsBuiltIn)
    (hlogger : f.isLogger = false) (h : runHook pre .pre f w x = (ended, w₁, x₁)) :
    w₁.Simultaneous w := by
  obtain ⟨v, hpre, rfl⟩ := exists_of_runHook h
  have hsame := simultaneous_pre hbuiltIn hlogger (w.note (.pre f.name)) x
  rw [hpre] at hsame
  exact ⟨hsame.now, hsame.clock, hsame.clockRuns, hsame.gone⟩

theorem runHook_withBody (hbuiltIn : f.IsBuiltIn) (hlogger : f.isLogger = false)
    (hagrees : w.Agrees w') (hclock : f.isLimiter = true → w.clock.now = w'.clock.now) (x : Exchange)
    (b b' : Body) :
    ∃ (ended : HookEnd) (v v' : World) (y : Exchange),
      runHook pre .pre f w (x.withBody b) = (ended, v, y.withBody b) ∧
      runHook pre .pre f w' (x.withBody b') = (ended, v', y.withBody b') ∧ v.Agrees v' ∧
      y.scope = x.scope := by
  have hnoted : (w.note (.pre f.name)).Agrees (w'.note (.pre f.name)) := hagrees.withHooks _ _
  obtain ⟨ended, v, v', y, hpre, hpre', hagrees', hscope⟩ :=
    pre_withBody hbuiltIn hlogger hnoted hclock x b b'
  refine ⟨ended, { v with hooks := (w.note (.pre f.name)).hooks },
    { v' with hooks := (w'.note (.pre f.name)).hooks }, y, ?_, ?_, hagrees'.withHooks _ _, hscope⟩
  · rw [runHook, hpre]
  · rw [runHook, hpre']

/-- The rate limiters of a chain are asked while the clock reads some time. -/
def LimitsAt (time : Instant) (chain : List Filter) (w : World) (x : Exchange) : Prop :=
  ∀ front f back, chain = front ++ f :: back → f.isLimiter = true →
    (preAll front w x).1 = .passed → (preAll front w x).2.1.clock.now = time

variable {fs : List Filter} {time : Instant}

theorem LimitsAt.head (h : LimitsAt time (f :: fs) w x) (hf : f.isLimiter = true) :
    w.clock.now = time :=
  h [] f fs rfl hf rfl

theorem LimitsAt.tail {w₁ : World} {x₁ : Exchange} (h : LimitsAt time (f :: fs) w x)
    (hf : runHook pre .pre f w x = (.passed, w₁, x₁)) : LimitsAt time fs w₁ x₁ := by
  intro front g back hfs hg hpassed
  have hlimit := h (f :: front) g back (congrArg (f :: ·) hfs) hg
  simp only [preAll, runHooks, hf] at hlimit
  exact hlimit hpassed

/-- A chain without rate limiters asks none. -/
theorem limitsAt_of_unlimited (h : ∀ f ∈ fs, f.isLimiter = false) (time : Instant) (w : World)
    (x : Exchange) : LimitsAt time fs w x := by
  rintro front f back rfl hf
  exact absurd ((h f (by simp)).symm.trans hf) Bool.false_ne_true

/-- What the hooks before the request of a chain leave, but for its loggers, the chain without them
leaves as well. -/
theorem Ran.unlogged {ran : List Filter} {stop : Option (Filter × Fault)} {w₁ : World}
    {x₁ : Exchange} (h : Ran pre .pre fs w (x.withBody b') ran stop w₁ x₁)
    (hbuiltIn : ∀ f ∈ fs, f.IsBuiltIn)
    (hquiet : ∀ f fault, stop = some (f, fault) → f.isLogger = false)
    (htime : LimitsAt v.clock.now fs w (x.withBody b')) (hagrees : w.Agrees v)
    (hlogged : b.Logged now₀ limit w.now b') (hlimit : limit = x.scope.limit now₀ w.gone) :
    ∃ ran' v₁ y b₁, Ran pre .pre (unlogged fs) v (x.withBody b) ran' stop v₁ (Exchange.withBody y b) ∧
      w₁.Agrees v₁ ∧ x₁ = y.withBody b₁ ∧ b.Logged now₀ limit w₁.now b₁ ∧ y.scope = x.scope ∧
      w₁.gone = w.gone ∧ w₁.clockRuns = w.clockRuns := by
  generalize hx : x.withBody b' = x₀ at h
  induction h generalizing x b' v with
  | through w x₀ =>
    exact ⟨[], v, x, b', .through _ _, hagrees, hx.symm, hlogged, rfl, rfl, rfl⟩
  | @next f fs ran stop w wf w₁ x₀ xf x₁ hf hrest ih =>
    subst hx
    have hlater : ∀ g ∈ fs, g.IsBuiltIn := fun g hg => hbuiltIn g (List.mem_cons_of_mem _ hg)
    cases hlogger : f.isLogger with
    | true =>
      -- the chain without its loggers stays where it is
      rw [Filter.unlogged, List.filter_cons_of_neg (by simp [hlogger])]
      cases f with
      | logger level maxBody =>
        obtain ⟨hkept, b₁, rfl, hlogged₁⟩ := runHook_logger hlogged hlimit hf
        have hgone : wf.gone = w.gone := hkept.gone
        have hruns : wf.clockRuns = w.clockRuns := hkept.clockRuns
        rw [← hgone] at hlimit ⊢
        rw [← hruns]
        exact ih hlater hquiet (htime.tail hf) (hkept.trans hagrees) hlogged₁ hlimit rfl
      | _ => cases hlogger
    | false =>
      rw [Filter.unlogged, List.filter_cons_of_pos (by simp [hlogger])]
      have hhere := hbuiltIn f List.mem_cons_self
      obtain ⟨ended, vf, vf', y, hpre, hpre', hagrees₁, hscope⟩ :=
        runHook_withBody hhere hlogger hagrees htime.head x b' b
      cases hf.symm.trans hpre
      have hsame := simultaneous_runHook hhere hlogger hf
      rw [← hsame.now] at hlogged
      rw [← hscope, ← hsame.gone] at hlimit
      have htime₁ := htime.tail hf
      rw [← (simultaneous_runHook hhere hlogger hpre').clock] at htime₁
      obtain ⟨ran', v₁, z, b₁, hran, hagrees₂, hx₁, hlogged₁, hscope₁, hgone₁, hruns₁⟩ :=
        ih hlater hquiet htime₁ hagrees₁ hlogged hlimit rfl
      exact ⟨_, v₁, z, b₁, .next hpre' hran, hagrees₂, hx₁, hlogged₁, hscope₁.trans hscope,
        hgone₁.trans hsame.gone, hruns₁.trans hsame.clockRuns⟩
  | @stopped f fs fault w wf x₀ xf hf =>
    subst hx
    have hlogger : f.isLogger = false := hquiet f _ rfl
    have hhere := hbuiltIn f List.mem_cons_self
    rw [Filter.unlogged, List.filter_cons_of_pos (by simp [hlogger])]
    obtain ⟨ended, vf, vf', y, hpre, hpre', hagrees₁, hscope⟩ :=
      runHook_withBody hhere hlogger hagrees htime.head x b' b
    cases hf.symm.trans hpre
    have hsame := simultaneous_runHook hhere hlogger hf
    rw [← hsame.now] at hlogged
    exact ⟨_, _, y, b', .stopped hpre', hagrees₁, rfl, hlogged, hscope, hsame.gone, hsame.clockRuns⟩

/-- A logger that fails before the request is disturbed. -/
theorem Ran.isDisturbance_of_isLogger {fs ran : List Filter} {e : Error} {w₁ : World} {x₁ : Exchange}
    (h : Ran pre .pre fs w x ran (some (f, .error e)) w₁ x₁) (hlogger : f.isLogger = true) :
    e.IsDisturbance := by
  obtain ⟨-, v, y, v₁, hpre⟩ := h.exists_stopped
  cases f with
  | logger level maxBody => exact isDisturbance_of_logRequest hpre
  | _ => cases hlogger

/-- A filter of the gateway that fails after the response is disturbed. -/
theorem Ran.isDisturbance_of_post {fs ran : List Filter} {e : Error} {w₁ : World} {x₁ : Exchange}
    (h : Ran post .post fs w x ran (some (f, .error e)) w₁ x₁) (hbuiltIn : ∀ g ∈ fs, g.IsBuiltIn) :
    e.IsDisturbance := by
  obtain ⟨hmem, v, y, v₁, hpost⟩ := h.exists_stopped
  -- only a logger does anything that can fail
  cases f with
  | header side name edit => cases side <;> cases hpost
  | pathEdit => cases hpost
  | logger level maxBody => exact isDisturbance_of_logResponse hpost
  | rateLimit => cases hpost
  | custom label before after => exact (hbuiltIn _ hmem).elim

/-! ## Two chains that are the same without their loggers -/

/-- Two chains of filters of the gateway that are the same without their loggers. -/
structure SameButLoggers (fs gs : List Filter) : Prop where
  left : ∀ f ∈ fs, f.IsBuiltIn
  right : ∀ f ∈ gs, f.IsBuiltIn
  unlogged : unlogged fs = unlogged gs

variable {gs : List Filter}

theorem SameButLoggers.symm (h : SameButLoggers fs gs) : SameButLoggers gs fs :=
  ⟨h.right, h.left, h.unlogged.symm⟩

/-- The loggers of a chain have no part in what it makes of a response. -/
theorem foldl_unlogged (fs : List Filter) (hs : Http.Headers) :
    (Filter.unlogged fs).foldl (fun hs f => f.responseHeaders hs) hs =
      fs.foldl (fun hs f => f.responseHeaders hs) hs := by
  induction fs generalizing hs with
  | nil => rfl
  | cons f fs ih =>
    cases hlogger : f.isLogger with
    | true =>
      rw [Filter.unlogged, List.filter_cons_of_neg (by simp [hlogger]), List.foldl_cons]
      cases f with
      | logger level maxBody => exact ih hs
      | _ => cases hlogger
    | false =>
      rw [Filter.unlogged, List.filter_cons_of_pos (by simp [hlogger]), List.foldl_cons,
        List.foldl_cons]
      exact ih _

/-- What two runs of hooks before the request leave of an exchange that are the same without their
loggers: the same exchange, up to the body of its request. -/
structure LeftAlike (w : World) (x : Exchange) (w₁ : World) (b₁ : Body) (w₂ : World) (b₂ : Body)
    (y : Exchange) : Prop where
  agrees : w₁.Agrees w₂
  left : x.request.body.Logged w.now (x.scope.limit w.now w.gone) w₁.now b₁
  right : x.request.body.Logged w.now (x.scope.limit w.now w.gone) w₂.now b₂
  scope : y.scope = x.scope
  gone : w₁.gone = w.gone
  clockRuns : w₁.clockRuns = w.clockRuns

/-- **Loggers leave what other filters leave.** Two chains that are the same without their loggers, and
whose rate limiters read the clock as it is, stop at the same filter, unless one stops at a logger, and
leave the same exchange but for the body. -/
theorem SameButLoggers.leftAlike (h : SameButLoggers fs gs) {ran ran' : List Filter}
    {stop stop' : Option (Filter × Fault)} {w₁ w₂ : World} {x₁ x₂ : Exchange}
    (hleft : Ran pre .pre fs w x ran stop w₁ x₁) (hright : Ran pre .pre gs w x ran' stop' w₂ x₂)
    (hquiet : ∀ f fault, stop = some (f, fault) → f.isLogger = false)
    (hquiet' : ∀ f fault, stop' = some (f, fault) → f.isLogger = false)
    (htime : LimitsAt w.clock.now fs w x) (htime' : LimitsAt w.clock.now gs w x) :
    stop' = stop ∧ ∃ y b₁ b₂, x₁ = Exchange.withBody y b₁ ∧ x₂ = Exchange.withBody y b₂ ∧
      LeftAlike w x w₁ b₁ w₂ b₂ y := by
  have hrefl : w.Agrees w := ⟨rfl, rfl, rfl, rfl⟩
  obtain ⟨_, v₁, y, b₁, hbase, hagrees, rfl, hlogged, hscope, hgone, hruns⟩ :=
    hleft.unlogged h.left hquiet htime hrefl .untouched rfl
  obtain ⟨_, v₂, z, b₂, hbase', hagrees', rfl, hlogged', -, -, -⟩ :=
    hright.unlogged h.right hquiet' htime' hrefl .untouched rfl
  -- both run the chain that they share without their loggers, which runs in one way only
  rw [h.unlogged] at hbase
  obtain ⟨-, rfl, rfl, hyz⟩ := hbase.unique hbase'
  have hz (b : Body) : Exchange.withBody z b = Exchange.withBody y b := by
    have hbodies := congrArg (fun x => Exchange.withBody x b) hyz.symm
    exact hbodies
  refine ⟨rfl, y, b₁, b₂, rfl, hz b₂, hagrees.trans hagrees'.symm, hlogged, hlogged', hscope, hgone,
    hruns⟩

end Filter

end Gatehouse
