import Gatehouse.Proofs.Breaker.Usage

/-!
# Whom a breaker admits, and what becomes of their outcomes

`halfOpen_budget` says that a half-open breaker admits no more probes than it may, that all of them
have succeeded or are in flight, and that it never keeps everybody out: where no probe is in flight
the next call is one. `calls_accounted_for` says that every admitted call is counted once and that
the outcome of a call of an earlier generation, however late it comes, is only a reading, also where
reading panics. Counters are natural numbers here; `counters_le_length` says how far a run can take
them.
-/

namespace Gatehouse.Breaker.Usage

variable {p : BreakerPolicy} {u : Usage}

/-! ## Probes -/

/-- A half-open breaker whose probes have all reported is not full: each of them has succeeded, and
it would be closed if that were enough of them. -/
theorem Sound.admits_of_halfOpen (h : Sound p u) (hs : u.breaker.state = .halfOpen)
    (hidle : u.pending = 0) : Admits p u.breaker := by
  refine ⟨by simp [hs], fun _ => ?_⟩
  obtain ⟨-, hfailures, -, hlt⟩ := h.halfOpen hs
  have hbalance := h.balance
  omega

/-- Being half open has no end of its own, so the next call is admitted whenever it comes. -/
theorem Sound.enter_of_halfOpen (h : Sound p u) (hs : u.breaker.state = .halfOpen)
    (hidle : u.pending = 0) (now : Duration) :
    Breaker.enter p u.breaker now = (.ok (.ok u.breaker.generation), u.breaker.withCall) := by
  have href : refresh p u.breaker now = (.ok (), u.breaker) := refresh_of_halfOpen hs
  have hadmits : Admits p (refresh p u.breaker now).2 := by
    rw [href]
    exact h.admits_of_halfOpen hs hidle
  rw [enter_of_admits (congrArg Prod.fst href) hadmits, href]

/-- A half-open breaker keeps to its budget of probes, counts exactly those that have succeeded or
are in flight, and admits the next call when none is in flight. No generation ever admits more
probes than the budget. -/
theorem halfOpen_budget (p : BreakerPolicy) (start : Duration) (actions : List Action) :
    let u := (fresh p start).run p actions
    (u.breaker.state = .halfOpen →
      u.breaker.counts.requests ≤ max p.maxRequests 1 ∧
      u.breaker.counts.totalFailures = 0 ∧
      u.breaker.counts.consecutiveSuccesses = u.breaker.counts.totalSuccesses ∧
      u.breaker.counts.totalSuccesses < max p.maxRequests 1 ∧
      u.breaker.counts.requests = u.breaker.counts.consecutiveSuccesses + u.pending ∧
      (u.pending = 0 → ∀ later ≥ u.now,
        (Breaker.enter p u.breaker later).1 = .ok (.ok u.breaker.generation))) ∧
    ∀ g, u.admitted.count ⟨.halfOpen, g⟩ ≤ max p.maxRequests 1 := by
  intro u
  have h : Sound p u := sound_run_fresh p start actions
  refine ⟨fun hs => ?_, h.budget⟩
  obtain ⟨hle, hfailures, hconsecutive, hlt⟩ := h.halfOpen hs
  refine ⟨hle, hfailures, hconsecutive, hlt, ?_, fun hidle later _ => ?_⟩
  · have hbalance := h.balance
    omega
  · rw [h.enter_of_halfOpen hs hidle later]

/-- A breaker of two probes that a failure has opened is half open a minute later, with the first
probe in flight. -/
example :
    let p : BreakerPolicy :=
      { name := "backend", maxRequests := 2, trips := some (BreakerPolicy.consecutive 0) }
    let u := (fresh p 0).run p
      [.enter, .settle ⟨.closed, 0⟩ false, .wait (Duration.ofSeconds 60), .enter]
    u.breaker.state = .halfOpen ∧ u.pending = 1 := by
  decide

/-! ## Late outcomes -/

/-- The generation that is current once everything due has been done. -/
def dueGeneration (p : BreakerPolicy) (u : Usage) : Nat :=
  (refresh p u.breaker u.now).2.generation

theorem refresh_generation_le (b : Breaker) (now : Duration) :
    (refresh p b now).2.generation ≤ b.generation + 1 := by
  rcases refresh_cases p b now with h | ⟨-, -, h⟩ | ⟨-, -, h⟩
  · rw [h]
    exact Nat.le_succ _
  · exact Nat.le_of_eq h.generation
  · exact Nat.le_of_eq h.generation

theorem refresh_generation_mono (b : Breaker) {now later : Duration} (h : now ≤ later) :
    (refresh p b now).2.generation ≤ (refresh p b later).2.generation := by
  by_cases hdue : IsDue b now
  · have hdue' : IsDue b later := hdue.mono h
    have hle := refresh_generation_le (p := p) b now
    cases hs : b.state with
    | closed => exact (begun_refresh_of_closed hs hdue').generation ▸ hle
    | opened => exact (begun_refresh_of_opened hs hdue').generation ▸ hle
    | halfOpen =>
      refine Nat.le_of_eq ?_
      rw [refresh_of_halfOpen hs, refresh_of_halfOpen hs]
  · rw [refresh_of_not_isDue hdue]
    exact generation_le_refresh p b later

/-- The current generation never goes back. -/
theorem dueGeneration_le_step (u : Usage) (a : Action) :
    u.dueGeneration p ≤ (u.step p a).dueGeneration p := by
  have hnow : u.now ≤ (u.step p a).now := now_le_step u a
  have heffect := effect_step p u a
  simp only [dueGeneration]
  generalize (u.step p a).breaker = b' at heffect ⊢
  cases heffect with
  | leaves => exact refresh_generation_mono _ hnow
  | reads => exact generation_le_refresh p _ _
  | counts _ counts totalRequests =>
    exact generation_le_refresh p { (refresh p u.breaker u.now).2 with counts, totalRequests } _
  | turns _ hb =>
    exact Nat.le_trans (hb.generation ▸ Nat.le_succ _) (generation_le_refresh p _ _)
  | resets hb =>
    exact Nat.le_trans (hb.generation ▸ refresh_generation_le _ _) (generation_le_refresh p _ _)

theorem dueGeneration_le_run (u : Usage) (actions : List Action) :
    u.dueGeneration p ≤ (u.run p actions).dueGeneration p := by
  induction actions generalizing u with
  | nil => exact Nat.le_refl _
  | cons a actions ih => exact Nat.le_trans (dueGeneration_le_step u a) (ih (u.step p a))

/-- A generation that is over does not come back. -/
theorem Sound.late {call : Call} (h : Sound p u) (hcall : call ∈ u.admitted)
    (hlate : call.generation ≠ u.dueGeneration p) (later : List Action) :
    call.generation ≠ (u.run p later).dueGeneration p := by
  have hpast : call.generation ≤ u.dueGeneration p :=
    Nat.le_trans (h.past call hcall) (generation_le_refresh p _ _)
  have hgrows := dueGeneration_le_run (p := p) u later
  omega

/-- Every call that the current generation has admitted is a success, a failure or in flight, and
the total counts every call ever admitted. An outcome for a generation that is not the current one
does what reading at that instant does, and so does every later outcome for that generation. -/
theorem calls_accounted_for (p : BreakerPolicy) (start : Duration) (actions : List Action) :
    let u := (fresh p start).run p actions
    u.breaker.counts.requests =
      u.breaker.counts.totalSuccesses + u.breaker.counts.totalFailures + u.pending ∧
    u.breaker.totalRequests = u.admitted.length ∧
    (∀ g success, g ≠ (refresh p u.breaker u.now).2.generation →
      Breaker.settle p u.breaker g success u.now = refresh p u.breaker u.now) ∧
    ∀ call ∈ u.admitted, call.generation ≠ (refresh p u.breaker u.now).2.generation →
      ∀ later success, let v := u.run p later
        call.generation ≠ (refresh p v.breaker v.now).2.generation ∧
        Breaker.settle p v.breaker call.generation success v.now = refresh p v.breaker v.now := by
  intro u
  have h : Sound p u := sound_run_fresh p start actions
  refine ⟨h.balance, h.total, fun g success hne => settle_of_ne hne.symm, ?_⟩
  intro call hcall hlate later success v
  have hlate' : call.generation ≠ v.dueGeneration p := h.late hcall hlate later
  exact ⟨hlate', settle_of_ne hlate'.symm⟩

/-! ## How large counters get -/

theorem length_admitted_step_le (u : Usage) (a : Action) :
    (u.step p a).admitted.length ≤ u.admitted.length + 1 := by
  cases a with
  | enter =>
    rcases enter_cases p u.breaker u.now with ⟨-, heq⟩ | ⟨-, e, heq⟩ | ⟨panic, -, heq⟩
    · simp only [step, heq]
      exact Nat.le_refl _
    · simp only [step, heq]
      exact Nat.le_succ _
    · simp only [step, heq]
      exact Nat.le_succ _
  | settle call success =>
    by_cases hcall : call ∈ u.inFlight
    · simp only [step, if_pos hcall]
      exact Nat.le_succ _
    · simp only [step, if_neg hcall]
      exact Nat.le_succ _
  | read => exact Nat.le_succ _
  | reset => exact Nat.le_succ _
  | wait d => exact Nat.le_succ _

/-- One action begins two generations at most: the one that is due and the one it brings about. -/
theorem generation_step_le (u : Usage) (a : Action) :
    (u.step p a).breaker.generation ≤ u.breaker.generation + 2 := by
  have hdue := refresh_generation_le (p := p) u.breaker u.now
  have heffect := effect_step p u a
  generalize (u.step p a).breaker = b' at heffect ⊢
  cases heffect with
  | leaves => exact Nat.le_add_right _ 2
  | reads | counts => exact Nat.le_succ_of_le hdue
  | turns _ hb => exact hb.generation ▸ Nat.succ_le_succ hdue
  | resets hb => exact hb.generation ▸ Nat.le_succ _

theorem length_admitted_run_le (u : Usage) (actions : List Action) :
    (u.run p actions).admitted.length ≤ u.admitted.length + actions.length ∧
      (u.run p actions).breaker.generation ≤ u.breaker.generation + 2 * actions.length := by
  induction actions generalizing u with
  | nil => exact ⟨Nat.le_refl _, Nat.le_refl _⟩
  | cons a actions ih =>
    have hadmitted := length_admitted_step_le (p := p) u a
    have hgeneration := generation_step_le (p := p) u a
    obtain ⟨hrest, hrest'⟩ := ih (u.step p a)
    rw [List.length_cons]
    exact ⟨Nat.le_trans hrest (by omega), Nat.le_trans hrest' (by omega)⟩

/-- No counter outgrows the run: below `2 ^ 63` actions each of them fits into 64 bits. -/
theorem counters_le_length (p : BreakerPolicy) (start : Duration) (actions : List Action) :
    let u := (fresh p start).run p actions
    u.breaker.totalRequests ≤ actions.length ∧ u.breaker.counts.requests ≤ actions.length ∧
      u.breaker.generation ≤ (Breaker.start p start).generation + 2 * actions.length := by
  intro u
  have h : Sound p u := sound_run_fresh p start actions
  obtain ⟨hadmitted, hgeneration⟩ := length_admitted_run_le (p := p) (fresh p start) actions
  have hlength : u.admitted.length ≤ actions.length :=
    Nat.le_trans hadmitted (Nat.le_of_eq (Nat.zero_add _))
  refine ⟨h.total ▸ hlength, ?_, hgeneration⟩
  rw [← h.requests]
  exact Nat.le_trans List.countP_le_length hlength

end Gatehouse.Breaker.Usage
