import Gatehouse.Proofs.Breaker.Operation
import Mathlib.Data.List.Perm.Basic

/-!
# A breaker in use

Any number of callers share a breaker: their calls overlap, and an outcome may come long after the
generation that admitted its call. `Usage` is a breaker with the calls it has admitted, `step` is
what one action of a caller or of the clock does to it, and `run` takes actions in any order.
`Sound` is what every run keeps: the counts of a breaker are those of the calls of its generation.
-/

namespace Gatehouse.Breaker

/-- A call that a breaker has admitted, by the state and the generation that admitted it. -/
structure Call where
  state : BreakerState
  generation : Nat
  deriving DecidableEq, Repr

/-- A breaker at an instant with the calls it has admitted. -/
structure Usage where
  breaker : Breaker
  now : Duration
  /-- The admitted calls that have not reported an outcome. -/
  inFlight : List Call := []
  /-- All admitted calls, the latest first. -/
  admitted : List Call := []

/-- What callers and the clock do to a breaker. -/
inductive Action
  /-- A call asks to be let through. -/
  | enter
  /-- A call in flight reports its outcome; any other call has none to report. -/
  | settle (call : Call) (success : Bool)
  /-- The state or the metrics are read. -/
  | read
  | reset
  /-- Time passes. -/
  | wait (d : Duration)
  deriving DecidableEq, Repr

namespace Usage

variable (p : BreakerPolicy)

/-- A breaker that nobody has used yet. -/
def fresh (now : Duration) : Usage := { breaker := start p now, now }

/-- How many calls of the current generation are in flight. -/
def pending (u : Usage) : Nat :=
  u.inFlight.countP fun c => c.generation == u.breaker.generation

/-- The usage with one more call, admitted by a breaker that is then as given. -/
def admitting (u : Usage) (call : Call) (b : Breaker) : Usage :=
  { u with breaker := b, inFlight := call :: u.inFlight, admitted := call :: u.admitted }

/-- What one action does. -/
def step (u : Usage) : Action → Usage
  | .enter =>
    match Breaker.enter p u.breaker u.now with
    | (.ok (.ok generation), b) => u.admitting ⟨b.state, generation⟩ b
    | (.ok (.error _), b) | (.error _, b) => { u with breaker := b }
  | .settle call success =>
    if call ∈ u.inFlight then
      { u with
        breaker := (Breaker.settle p u.breaker call.generation success u.now).2
        inFlight := u.inFlight.erase call }
    else u
  | .read => { u with breaker := (refresh p u.breaker u.now).2 }
  | .reset => { u with breaker := (Breaker.reset p u.breaker u.now).2 }
  | .wait d => { u with now := u.now + d }

/-- What a sequence of actions does. -/
def run (u : Usage) (actions : List Action) : Usage := actions.foldl (step p) u

/-- What the counts of a half-open breaker are like: its probes are within the budget, and none has
failed. -/
structure Probing (c : Counts) : Prop where
  requests_le : c.requests ≤ p.probes
  failures : c.totalFailures = 0
  consecutive : c.consecutiveSuccesses = c.totalSuccesses
  successes_lt : c.totalSuccesses < p.probes

/-- The breaker and the calls it has admitted agree. -/
structure Sound (u : Usage) : Prop where
  total : u.breaker.totalRequests = u.admitted.length
  known : ∀ c ∈ u.inFlight, c ∈ u.admitted
  past : ∀ c ∈ u.admitted, c.generation ≤ u.breaker.generation
  current : ∀ c ∈ u.admitted, c.generation = u.breaker.generation → c.state = u.breaker.state
  never_opened : ∀ c ∈ u.admitted, c.state ≠ .opened
  requests : u.admitted.countP (fun c => c.generation == u.breaker.generation) =
    u.breaker.counts.requests
  balance : u.breaker.counts.requests =
    u.breaker.counts.totalSuccesses + u.breaker.counts.totalFailures + u.pending
  halfOpen : u.breaker.state = .halfOpen → Probing p u.breaker.counts
  budget : ∀ g, u.admitted.count ⟨.halfOpen, g⟩ ≤ p.probes

variable {p} {u : Usage}

theorem run_append (u : Usage) (before after : List Action) :
    u.run p (before ++ after) = (u.run p before).run p after :=
  List.foldl_append

/-! ## The instant -/

/-- Only the clock moves the instant, and only forward. -/
theorem now_step (u : Usage) (a : Action) :
    (u.step p a).now = u.now + (match a with | .wait d => d | _ => 0) := by
  cases a with
  | enter => simp only [step]; split <;> rfl
  | settle call success => simp only [step]; split <;> rfl
  | read => rfl
  | reset => rfl
  | wait d => rfl

theorem now_le_step (u : Usage) (a : Action) : u.now ≤ (u.step p a).now :=
  now_step u a ▸ Nat.le_add_right _ _

theorem now_le_run (u : Usage) (actions : List Action) : u.now ≤ (u.run p actions).now := by
  induction actions generalizing u with
  | nil => exact Nat.le_refl _
  | cons a actions ih => exact Nat.le_trans (now_le_step u a) (ih (u.step p a))

/-! ## What an action does to the breaker -/

/-- What an action may make of a breaker at an instant. It leaves the breaker alone, or the breaker is
read and then counts something or begins a generation; only a reset begins one without reading. -/
inductive Effect (p : BreakerPolicy) (b : Breaker) (now : Duration) : Action → Breaker → Prop
  | leaves (a : Action) : Effect p b now a b
  | reads (a : Action) : Effect p b now a (refresh p b now).2
  | counts (a : Action) (counts : Counts) (totalRequests : Nat) :
      (refresh p b now).2.state ≠ .opened →
      Effect p b now a { (refresh p b now).2 with counts, totalRequests }
  | turns {call : Call} {success : Bool} {s : BreakerState} {r : Except Panic Unit × Breaker} :
      (refresh p b now).2.state ≠ .opened → Begun p (refresh p b now).2 s now r →
      Effect p b now (.settle call success) r.2
  | resets {r : Except Panic Unit × Breaker} : Begun p b .closed now r → Effect p b now .reset r.2

theorem effect_step (p : BreakerPolicy) (u : Usage) (a : Action) :
    Effect p u.breaker u.now a (u.step p a).breaker := by
  cases a with
  | enter =>
    rcases enter_cases p u.breaker u.now with ⟨hadmits, heq⟩ | ⟨-, e, heq⟩ | ⟨panic, -, heq⟩
    · simp only [step, heq]
      exact .counts _ _ _ hadmits.1
    · simp only [step, heq]
      exact .reads _
    · simp only [step, heq]
      exact .reads _
  | settle call success =>
    by_cases hcall : call ∈ u.inFlight
    · simp only [step, if_pos hcall]
      rcases settle_cases p u.breaker call.generation success u.now with
        ⟨-, heq⟩ | ⟨-, hopen, -, heq⟩ | ⟨-, -, hs, hb⟩ | ⟨-, -, hopen, hb⟩
      · rw [heq]
        exact .reads _
      · rw [heq]
        exact .counts _ _ _ hopen
      · exact .turns (by simp [hs]) hb
      · exact .turns hopen hb
    · simp only [step, if_neg hcall]
      exact .leaves _
  | read => exact .reads _
  | reset => exact .resets (begun_reset p u.breaker u.now)
  | wait d => exact .leaves _

/-! ## Ends on the timeline -/

theorem endFits_step (h : EndFits u.breaker) (a : Action) : EndFits (u.step p a).breaker := by
  have href : EndFits (refresh p u.breaker u.now).2 := h.refresh p u.now
  have heffect := effect_step p u a
  generalize (u.step p a).breaker = b' at heffect ⊢
  cases heffect with
  | leaves => exact h
  | reads => exact href
  | counts => exact href
  | turns _ hb => exact endFits_of_begun href hb
  | resets hb => exact endFits_of_begun h hb

/-- Only an end that is on the timeline is ever kept. -/
theorem endFits_run {start : Duration} (hstart : expiryFits p .closed start = true)
    (actions : List Action) : EndFits ((fresh p start).run p actions).breaker := by
  have hfresh : EndFits (fresh p start).breaker := by
    intro expiry he
    rw [expiryFits, show expiryOf p .closed start = some expiry from he] at hstart
    exact hstart
  generalize fresh p start = u at hfresh ⊢
  induction actions generalizing u with
  | nil => exact hfresh
  | cons a actions ih => exact ih (u.step p a) (endFits_step hfresh a)

/-! ## What a step is made of -/

theorem probes_pos (p : BreakerPolicy) : 0 < p.probes := Nat.le_max_right _ _

/-- No call was admitted by a generation that is yet to begin. -/
theorem countP_next_generation {g : Nat} {calls : List Call} (h : ∀ c ∈ calls, c.generation ≤ g) :
    calls.countP (fun c => c.generation == g + 1) = 0 := by
  rw [List.countP_eq_zero]
  intro c hc hg
  have hle := h c hc
  have heq := eq_of_beq hg
  omega

/-- A new generation has no calls yet. -/
theorem Sound.begun {s : BreakerState} {now : Duration} {r : Except Panic Unit × Breaker}
    (h : Sound p u) (hb : Begun p u.breaker s now r) : Sound p { u with breaker := r.2 } where
  total := hb.totalRequests.trans h.total
  known := h.known
  past c hc := hb.generation ▸ Nat.le_succ_of_le (h.past c hc)
  current c hc hg := by
    have hle := h.past c hc
    simp only [hb.generation] at hg
    omega
  never_opened := h.never_opened
  requests := by
    simp only [hb.generation, hb.counts]
    exact countP_next_generation h.past
  balance := by
    have hnone : u.inFlight.countP (fun c => c.generation == u.breaker.generation + 1) = 0 :=
      countP_next_generation fun c hc => h.past c (h.known c hc)
    simp only [pending, hb.generation, hb.counts, hnone]
  halfOpen _ := by
    simp only [hb.counts]
    exact ⟨Nat.zero_le _, rfl, rfl, probes_pos p⟩
  budget := h.budget

/-- Reading begins at most a new generation. -/
theorem Sound.refreshed (h : Sound p u) (now : Duration) :
    Sound p { u with breaker := (refresh p u.breaker now).2 } := by
  rcases refresh_cases p u.breaker now with heq | ⟨-, -, hb⟩ | ⟨-, -, hb⟩
  · rw [heq]; exact h
  · exact h.begun hb
  · exact h.begun hb

/-- A call that is admitted is the one more call that the counts say. -/
theorem Sound.withCall (h : Sound p u) (hadmits : Admits p u.breaker) :
    Sound p (u.admitting ⟨u.breaker.state, u.breaker.generation⟩ u.breaker.withCall) where
  total := by
    simp only [admitting, Breaker.withCall, List.length_cons, h.total]
  known c hc := by
    rcases List.mem_cons.mp hc with rfl | hc
    · exact List.mem_cons_self
    · exact List.mem_cons_of_mem _ (h.known c hc)
  past c hc := by
    rcases List.mem_cons.mp hc with rfl | hc
    · exact Nat.le_refl _
    · exact h.past c hc
  current c hc hg := by
    rcases List.mem_cons.mp hc with rfl | hc
    · rfl
    · exact h.current c hc hg
  never_opened c hc := by
    rcases List.mem_cons.mp hc with rfl | hc
    · exact hadmits.1
    · exact h.never_opened c hc
  requests := by
    have hrequests := h.requests
    simp only [admitting, Breaker.withCall, Counts.enter, List.countP_cons, beq_self_eq_true,
      if_true]
    omega
  balance := by
    have hbalance := h.balance
    simp only [pending, admitting, Breaker.withCall, Counts.enter, List.countP_cons,
      beq_self_eq_true, if_true] at hbalance ⊢
    omega
  halfOpen hs := by
    have hprobing := h.halfOpen hs
    exact ⟨hadmits.2 hs, hprobing.failures, hprobing.consecutive, hprobing.successes_lt⟩
  budget g := by
    by_cases hcall : (⟨u.breaker.state, u.breaker.generation⟩ : Call) = ⟨.halfOpen, g⟩
    · -- the calls of a half-open generation are those that its counts are about
      obtain ⟨hs, rfl⟩ := Call.mk.inj hcall
      have hle : u.admitted.count ⟨.halfOpen, u.breaker.generation⟩ ≤
          u.admitted.countP fun c => c.generation == u.breaker.generation :=
        List.countP_mono_left fun c _ hc => by simp [eq_of_beq hc]
      have hlt := hadmits.2 hs
      have hrequests := h.requests
      simp only [admitting, hcall, List.count_cons_self]
      omega
    · simp only [admitting]
      rw [List.count_cons_of_ne hcall]
      exact h.budget g

/-- A call that reports leaves the calls in flight. -/
theorem pending_erase {call : Call} (hcall : call ∈ u.inFlight) (b : Breaker)
    (hb : b.generation = u.breaker.generation) :
    pending { u with breaker := b, inFlight := u.inFlight.erase call } +
      (if call.generation = u.breaker.generation then 1 else 0) = u.pending := by
  have hperm := (List.perm_cons_erase hcall).countP_eq
    fun c => c.generation == u.breaker.generation
  simp only [pending, hb, hperm, List.countP_cons, beq_iff_eq]

/-- A late outcome changes nothing but the calls in flight. -/
theorem Sound.discard {call : Call} (h : Sound p u) (hcall : call ∈ u.inFlight)
    (hlate : call.generation ≠ u.breaker.generation) :
    Sound p { u with inFlight := u.inFlight.erase call } where
  total := h.total
  known c hc := h.known c (List.mem_of_mem_erase hc)
  past := h.past
  current := h.current
  never_opened := h.never_opened
  requests := h.requests
  balance := by
    have hpending := pending_erase hcall u.breaker rfl
    rw [if_neg hlate, Nat.add_zero] at hpending
    exact h.balance.trans (by rw [← hpending])
  halfOpen := h.halfOpen
  budget := h.budget

/-- An outcome that begins a generation leaves its call to the generation that is over. -/
theorem Sound.begun_erase {call : Call} {s : BreakerState} {now : Duration}
    {r : Except Panic Unit × Breaker} (h : Sound p u) (hcall : call ∈ u.inFlight)
    (hb : Begun p u.breaker s now r) :
    Sound p { u with breaker := r.2, inFlight := u.inFlight.erase call } := by
  refine (h.begun hb).discard hcall ?_
  have hle := h.past call (h.known call hcall)
  simp only [hb.generation]
  omega

/-- An outcome of the current generation moves one call from those in flight to the successes or to
the failures. -/
theorem Sound.record {call : Call} {success : Bool} (h : Sound p u) (hcall : call ∈ u.inFlight)
    (hcurrent : call.generation = u.breaker.generation)
    (hhalf : u.breaker.state = .halfOpen →
      success = true ∧ u.breaker.counts.consecutiveSuccesses + 1 < p.probes) :
    Sound p { u with
      breaker := { u.breaker with counts := u.breaker.counts.withOutcome success }
      inFlight := u.inFlight.erase call } where
  total := h.total
  known c hc := h.known c (List.mem_of_mem_erase hc)
  past := h.past
  current := h.current
  never_opened := h.never_opened
  requests := by
    rw [h.requests]
    cases success <;> rfl
  balance := by
    have hbalance := h.balance
    have hpending := pending_erase hcall
      { u.breaker with counts := u.breaker.counts.withOutcome success } rfl
    rw [if_pos hcurrent] at hpending
    cases success <;>
      simp only [Counts.withOutcome, Counts.succeed, Counts.fail, if_true, if_false,
        Bool.false_eq_true] at hpending ⊢ <;>
      omega
  halfOpen hs := by
    obtain ⟨rfl, hlt⟩ := hhalf hs
    obtain ⟨hle, hfailures, hconsecutive, -⟩ := h.halfOpen hs
    rw [hconsecutive] at hlt
    simp only [Counts.withOutcome, if_true]
    exact ⟨hle, hfailures, congrArg (· + 1) hconsecutive, hlt⟩
  budget := h.budget

/-! ## Every run -/

theorem sound_fresh (p : BreakerPolicy) (now : Duration) : Sound p (fresh p now) where
  total := rfl
  known _ hc := nomatch hc
  past _ hc := nomatch hc
  current _ hc := nomatch hc
  never_opened _ hc := nomatch hc
  requests := rfl
  balance := rfl
  halfOpen hs := nomatch hs
  budget _ := Nat.zero_le _

theorem Sound.step (h : Sound p u) (a : Action) : Sound p (u.step p a) := by
  cases a with
  | enter =>
    have href := h.refreshed u.now
    rcases enter_cases p u.breaker u.now with ⟨hadmits, heq⟩ | ⟨-, e, heq⟩ | ⟨panic, -, heq⟩
    · simp only [Usage.step, heq]
      exact href.withCall hadmits
    · simp only [Usage.step, heq]
      exact href
    · simp only [Usage.step, heq]
      exact href
  | settle call success =>
    by_cases hcall : call ∈ u.inFlight
    · have href := h.refreshed u.now
      simp only [Usage.step, if_pos hcall]
      rcases settle_cases p u.breaker call.generation success u.now with
        ⟨hdrop, heq⟩ | ⟨hcurrent, -, hhalf, heq⟩ | ⟨-, -, -, hb⟩ | ⟨-, -, -, hb⟩
      · rw [heq]
        refine href.discard hcall ?_
        rcases hdrop with ⟨panic, hpanic⟩ | hne | hs
        · -- a generation has begun that the call is not of
          have hpast := h.past call (h.known call hcall)
          have hbegun := generation_of_refresh_error hpanic
          exact Nat.ne_of_lt (hbegun ▸ Nat.lt_succ_of_le hpast)
        · exact hne.symm
        · -- an open breaker has admitted none of the calls of its generation
          intro hg
          have hknown := h.known call hcall
          exact href.never_opened call hknown ((href.current call hknown hg).trans hs)
      · rw [heq]
        exact href.record hcall hcurrent.symm hhalf
      · exact href.begun_erase hcall hb
      · exact href.begun_erase hcall hb
    · simp only [Usage.step, if_neg hcall]
      exact h
  | read => exact h.refreshed u.now
  | reset => exact h.begun (begun_reset p u.breaker u.now)
  | wait d => exact ⟨h.total, h.known, h.past, h.current, h.never_opened, h.requests, h.balance,
      h.halfOpen, h.budget⟩

theorem Sound.run (h : Sound p u) (actions : List Action) : Sound p (u.run p actions) := by
  induction actions generalizing u with
  | nil => exact h
  | cons a actions ih => exact ih (h.step a)

/-- Whatever is done to a breaker and in whichever order, it agrees with the calls it has
admitted. -/
theorem sound_run_fresh (p : BreakerPolicy) (now : Duration) (actions : List Action) :
    Sound p ((fresh p now).run p actions) :=
  (sound_fresh p now).run actions

end Usage

end Gatehouse.Breaker
