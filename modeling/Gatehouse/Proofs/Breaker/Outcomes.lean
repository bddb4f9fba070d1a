import Gatehouse.Proofs.Breaker.Cooldown
import Mathlib.Data.List.DropRight

/-!
# The outcomes that trip a breaker

An outcome is recorded if the generation that admitted its call is still current when it is reported.
`outcomes` are the recorded outcomes of a run in the order in which they are reported, and
`outcomesOf` those of one generation. What a breaker counts as failures in a row is the number of
failures at the end of them (`Tallied`), so that a breaker which trips at more than `n` of them opens
where its generation has `n + 1` failures in a row for the first time, and nowhere else.
-/

namespace Gatehouse.Breaker

/-- The number of failures behind the last success. -/
def trailingFailures (outcomes : List Bool) : Nat := (outcomes.rtakeWhile (!·)).length

/-- A recorded outcome: the generation that it belongs to, and whether it is a success. -/
structure Outcome where
  generation : Nat
  success : Bool
  deriving DecidableEq, Repr

/-- The outcomes of one generation, in order. -/
def outcomesOf (generation : Nat) (outcomes : List Outcome) : List Bool :=
  outcomes.filterMap fun o => if o.generation = generation then some o.success else none

namespace Usage

variable (p : BreakerPolicy)

/-- The outcome that an action records: that of a call in flight whose generation is current once
everything due has been done. -/
def recorded (u : Usage) : Action → Option Outcome
  | .settle call success =>
    if call ∈ u.inFlight ∧ (refresh p u.breaker u.now).2.generation = call.generation then
      some ⟨call.generation, success⟩
    else none
  | .enter | .read | .reset | .wait _ => none

/-- The outcomes that a sequence of actions records. -/
def outcomes (u : Usage) : List Action → List Outcome
  | [] => []
  | a :: actions => (u.recorded p a).toList ++ outcomes (u.step p a) actions

end Usage

variable {p : BreakerPolicy} {b : Breaker} {now : Duration} {n : Nat} {os : List Outcome}
  {r : Except Panic Unit × Breaker}

/-! ## Failures in a row -/

theorem trailingFailures_concat (outcomes : List Bool) (success : Bool) :
    trailingFailures (outcomes ++ [success]) =
      if success then 0 else trailingFailures outcomes + 1 := by
  cases success with
  | true =>
    rw [trailingFailures, List.rtakeWhile_concat_neg _ _ _ (by decide)]
    rfl
  | false =>
    rw [trailingFailures, List.rtakeWhile_concat_pos _ _ _ (by decide), List.length_append]
    rfl

/-- So many outcomes at the end are failures if there are as many failures behind the last success. -/
theorem replicate_suffix_iff (k : Nat) (outcomes : List Bool) :
    List.replicate k false <:+ outcomes ↔ k ≤ trailingFailures outcomes := by
  -- on the last outcome, which ends the row of failures or prolongs it
  induction outcomes using List.reverseRecOn generalizing k with
  | nil => simp [trailingFailures]
  | append_singleton outcomes success ih =>
    rw [trailingFailures_concat]
    cases k with
    | zero => simp
    | succ k =>
      cases success with
      | true => simp [List.replicate_succ', List.suffix_concat_iff]
      | false => simp [List.replicate_succ', List.suffix_concat_iff, ih]

/-! ## The outcomes of a generation -/

theorem outcomesOf_concat_self (g : Nat) (os : List Outcome) (success : Bool) :
    outcomesOf g (os ++ [⟨g, success⟩]) = outcomesOf g os ++ [success] := by
  simp [outcomesOf]

/-- A generation that is yet to begin has no outcomes. -/
theorem outcomesOf_eq_nil {g : Nat} (h : ∀ o ∈ os, o.generation < g) : outcomesOf g os = [] := by
  rw [outcomesOf, List.filterMap_eq_nil_iff]
  intro o ho
  exact if_neg (Nat.ne_of_lt (h o ho))

/-- What a breaker counts as failures in a row are those at the end of the outcomes of its generation,
which never has more than `n` failures in a row. -/
structure Tallied (n : Nat) (b : Breaker) (os : List Outcome) : Prop where
  past : ∀ o ∈ os, o.generation ≤ b.generation
  streak : b.counts.consecutiveFailures = trailingFailures (outcomesOf b.generation os)
  calm : ¬ List.replicate (n + 1) false <:+: outcomesOf b.generation os

/-- A new generation has no outcomes yet. -/
theorem tallied_of_begun {s : BreakerState} (hpast : ∀ o ∈ os, o.generation ≤ b.generation)
    (hb : Begun p b s now r) : Tallied n r.2 os := by
  have hnone : outcomesOf r.2.generation os = [] :=
    outcomesOf_eq_nil fun o ho => hb.generation ▸ Nat.lt_succ_of_le (hpast o ho)
  refine ⟨fun o ho => hb.generation ▸ Nat.le_succ_of_le (hpast o ho), ?_, ?_⟩
  · rw [hnone, hb.counts]
    rfl
  · rw [hnone, List.infix_nil]
    exact nofun

theorem Tallied.refresh (h : Tallied n b os) (p : BreakerPolicy) (now : Duration) :
    Tallied n (refresh p b now).2 os := by
  rcases refresh_cases p b now with heq | ⟨-, -, hb⟩ | ⟨-, -, hb⟩
  · rw [heq]
    exact h
  · exact tallied_of_begun h.past hb
  · exact tallied_of_begun h.past hb

theorem Tallied.past_concat (h : Tallied n b os) (success : Bool) :
    ∀ o ∈ os ++ [⟨b.generation, success⟩], o.generation ≤ b.generation := by
  intro o ho
  rcases List.mem_append.mp ho with ho | ho
  · exact h.past o ho
  · rw [List.mem_singleton.mp ho]

/-- An outcome that is counted is the last of its generation. -/
theorem Tallied.record {success : Bool} (h : Tallied n b os)
    (hfew : success = false → b.counts.consecutiveFailures < n) :
    Tallied n { b with counts := b.counts.withOutcome success } (os ++ [⟨b.generation, success⟩]) where
  past := h.past_concat success
  streak := by
    rw [outcomesOf_concat_self, trailingFailures_concat, ← h.streak]
    cases success <;> rfl
  calm := by
    rw [outcomesOf_concat_self, List.infix_concat_iff, not_or]
    -- `n + 1` failures in a row would have to end with the outcome that is new
    refine ⟨?_, h.calm⟩
    rw [replicate_suffix_iff, trailingFailures_concat, ← h.streak]
    cases success with
    | true => simp
    | false =>
      have hlt := hfew rfl
      simp only [Bool.false_eq_true, if_false]
      omega

/-! ## What a closed breaker does with an outcome -/

theorem state_refresh_of_closed (hs : b.state = .closed) : (refresh p b now).2.state = .closed := by
  rcases refresh_cases p b now with heq | ⟨-, -, hb⟩ | ⟨hopened, -, -⟩
  · rw [heq, hs]
  · exact hb.state
  · rw [hs] at hopened
    cases hopened

theorem settle_success_of_closed (href : refresh p b now = (.ok (), b)) (hs : b.state = .closed) :
    settle p b b.generation true now = (.ok (), { b with counts := b.counts.succeed }) := by
  simp only [settle, href, succeed, hs, ne_eq, not_true_eq_false, if_false, if_true]

/-- A failure opens a closed breaker if the policy says so, and is counted otherwise. -/
theorem settle_failure_of_closed (href : refresh p b now = (.ok (), b)) (hs : b.state = .closed) :
    settle p b b.generation false now =
      if p.tripsAt b.counts.fail then change p { b with counts := b.counts.fail } .opened now
      else (.ok (), { b with counts := b.counts.fail }) := by
  simp only [settle, href, fail, hs, ne_eq, not_true_eq_false, if_false, Bool.false_eq_true]

/-- A failure that a breaker counts is none that trips it. -/
theorem not_tripsAt_of_counted (href : refresh p b now = (.ok (), b)) (hs : b.state = .closed)
    (heq : settle p b b.generation false now =
      (.ok (), { b with counts := b.counts.withOutcome false })) :
    p.tripsAt b.counts.fail = false := by
  by_contra htrips
  rw [settle_failure_of_closed href hs, if_pos (by simpa using htrips)] at heq
  have hopened : (change p { b with counts := b.counts.fail } .opened now).2.state = .opened :=
    (begun_change (by simp [hs])).state
  rw [heq] at hopened
  exact absurd (hs.symm.trans hopened) (by decide)

namespace Usage

variable {u : Usage}

theorem recorded_settle {call : Call} {success : Bool} (hcall : call ∈ u.inFlight)
    (hg : (refresh p u.breaker u.now).2.generation = call.generation) :
    u.recorded p (.settle call success) = some ⟨call.generation, success⟩ :=
  if_pos ⟨hcall, hg⟩

theorem recorded_settle_of_ne {call : Call} {success : Bool}
    (hg : (refresh p u.breaker u.now).2.generation ≠ call.generation) :
    u.recorded p (.settle call success) = none :=
  if_neg fun h => hg h.2

theorem tripsAt_consecutive (hp : p.trips = some (BreakerPolicy.consecutive n)) (c : Counts) :
    p.tripsAt c = decide (n < c.consecutiveFailures) := by
  rw [BreakerPolicy.tripsAt, hp]
  rfl

/-- A call whose outcome is recorded was admitted by the breaker as it is: nothing is due. -/
theorem Sound.refresh_of_recorded {call : Call} (h : Sound p u) (hcall : call ∈ u.inFlight)
    (hg : (refresh p u.breaker u.now).2.generation = call.generation) :
    refresh p u.breaker u.now = (.ok (), u.breaker) := by
  have hpast : call.generation ≤ u.breaker.generation := h.past call (h.known call hcall)
  -- what is due would begin a generation behind that of the call
  rcases refresh_cases p u.breaker u.now with heq | ⟨-, -, hb⟩ | ⟨-, -, hb⟩
  · exact heq
  · have hlater := hb.generation
    omega
  · have hlater := hb.generation
    omega

/-- An outcome that is recorded keeps the tally, whether it is counted or begins a generation. -/
theorem Sound.tallied_settle {call : Call} {success : Bool} (hsound : Sound p u)
    (hp : p.trips = some (BreakerPolicy.consecutive n)) (h : Tallied n u.breaker os)
    (hcall : call ∈ u.inFlight) (hg : (refresh p u.breaker u.now).2.generation = call.generation) :
    Tallied n (settle p u.breaker call.generation success u.now).2
      (os ++ [⟨call.generation, success⟩]) := by
  have hsame := hsound.refresh_of_recorded hcall hg
  have hcases := settle_cases p u.breaker call.generation success u.now
  rw [← hg, hsame] at hcases ⊢
  rcases hcases with ⟨hdropped, -⟩ | ⟨-, hopened, hhalf, heq⟩ | ⟨-, -, -, hb⟩ | ⟨-, -, -, hb⟩
  · rcases hdropped with ⟨panic, hpanic⟩ | hne | hopened
    · cases hpanic
    · exact absurd rfl hne
    · -- an open breaker has admitted none of the calls of its generation
      exact absurd hg (hsound.ne_of_opened hcall (by rw [hsame]; exact hopened))
  · rw [heq]
    refine h.record fun hfailure => ?_
    subst hfailure
    cases hs : u.breaker.state with
    | closed =>
      have hcalm := not_tripsAt_of_counted hsame hs heq
      rw [tripsAt_consecutive hp, decide_eq_false_iff_not] at hcalm
      simp only [Counts.fail] at hcalm
      omega
    | opened => exact absurd hs hopened
    | halfOpen =>
      -- a failure of a probe opens the breaker and is not counted
      exact absurd (hhalf hs).1 (by decide)
  · exact tallied_of_begun (h.past_concat success) hb
  · exact tallied_of_begun (h.past_concat success) hb

/-- One action keeps the tally. -/
theorem Sound.tallied_step (hsound : Sound p u)
    (hp : p.trips = some (BreakerPolicy.consecutive n)) (h : Tallied n u.breaker os) (a : Action) :
    Tallied n (u.step p a).breaker (os ++ (u.recorded p a).toList) := by
  have href := h.refresh p u.now
  cases a with
  | enter =>
    rw [recorded, Option.toList_none, List.append_nil]
    rcases enter_cases p u.breaker u.now with ⟨-, heq⟩ | ⟨-, e, heq⟩ | ⟨panic, -, heq⟩
    · simp only [Usage.step, heq]
      exact ⟨href.past, href.streak, href.calm⟩
    · simp only [Usage.step, heq]
      exact href
    · simp only [Usage.step, heq]
      exact href
  | settle call success =>
    by_cases hcall : call ∈ u.inFlight
    · simp only [Usage.step, if_pos hcall]
      by_cases hg : (refresh p u.breaker u.now).2.generation = call.generation
      · rw [recorded_settle hcall hg, Option.toList_some]
        exact hsound.tallied_settle hp h hcall hg
      · -- the generation of the call is over, and so is its say
        rw [recorded_settle_of_ne hg, Option.toList_none, List.append_nil, settle_of_ne hg]
        exact href
    · have hnone : u.recorded p (.settle call success) = none := if_neg fun h => hcall h.1
      simp only [Usage.step, if_neg hcall, hnone, Option.toList_none, List.append_nil]
      exact h
  | read =>
    rw [recorded, Option.toList_none, List.append_nil]
    exact href
  | reset =>
    rw [recorded, Option.toList_none, List.append_nil]
    exact tallied_of_begun h.past (begun_reset p u.breaker u.now)
  | wait d =>
    rw [recorded, Option.toList_none, List.append_nil]
    exact h

theorem Sound.tallied_run (hsound : Sound p u) (hp : p.trips = some (BreakerPolicy.consecutive n))
    (h : Tallied n u.breaker os) (actions : List Action) :
    Tallied n (u.run p actions).breaker (os ++ u.outcomes p actions) := by
  induction actions generalizing u os with
  | nil =>
    rw [outcomes, List.append_nil]
    exact h
  | cons a actions ih =>
    rw [outcomes, ← List.append_assoc]
    exact ih (hsound.step a) (hsound.tallied_step hp h a)

theorem tallied_fresh (p : BreakerPolicy) (n : Nat) (start : Duration) :
    Tallied n (fresh p start).breaker [] where
  past := nofun
  streak := rfl
  calm := by
    rw [outcomesOf, List.filterMap_nil, List.infix_nil]
    exact nofun

/-! ## Opening -/

/-- **Only a recorded failure opens a closed breaker**, namely one at which its policy trips. -/
theorem Sound.opens_iff (h : Sound p u) (hs : u.breaker.state = .closed) (a : Action) :
    (u.step p a).breaker.state = .opened ↔
      u.recorded p a = some ⟨u.breaker.generation, false⟩ ∧
        p.tripsAt u.breaker.counts.fail = true := by
  have href : (refresh p u.breaker u.now).2.state = .closed := state_refresh_of_closed hs
  -- an action that records nothing opens nothing
  have quiet {b : Breaker} {o : Option Outcome} (hb : b.state = .closed) (ho : o = none) :
      b.state = .opened ↔ o = some ⟨u.breaker.generation, false⟩ ∧
        p.tripsAt u.breaker.counts.fail = true := by
    simp [hb, ho]
  cases a with
  | enter =>
    refine quiet ?_ rfl
    rcases enter_cases p u.breaker u.now with ⟨-, heq⟩ | ⟨-, e, heq⟩ | ⟨panic, -, heq⟩
    · simp only [Usage.step, heq]
      exact href
    · simp only [Usage.step, heq]
      exact href
    · simp only [Usage.step, heq]
      exact href
  | settle call success =>
    by_cases hcall : call ∈ u.inFlight
    · by_cases hg : (refresh p u.breaker u.now).2.generation = call.generation
      · have hsame := h.refresh_of_recorded hcall hg
        simp only [Usage.step, if_pos hcall, recorded_settle hcall hg, ← hg, hsame]
        cases success with
        | true =>
          rw [settle_success_of_closed hsame hs]
          simp [hs]
        | false =>
          rw [settle_failure_of_closed hsame hs]
          by_cases htrips : p.tripsAt u.breaker.counts.fail = true
          · rw [if_pos htrips, (begun_change (by simp [hs])).state]
            simp [htrips]
          · rw [if_neg htrips]
            simp [htrips, hs]
      · refine quiet ?_ (recorded_settle_of_ne hg)
        simp only [Usage.step, if_pos hcall, settle_of_ne hg]
        exact href
    · refine quiet ?_ (if_neg fun h => hcall h.1)
      simp only [Usage.step, if_neg hcall]
      exact hs
  | read => exact quiet href rfl
  | reset => exact quiet (begun_reset p u.breaker u.now).state rfl
  | wait d => exact quiet hs rfl

/-- **A breaker opens at its first run of failures.** A breaker that trips at more than `n` failures
in a row counts the failures at the end of the outcomes that its generation has recorded. There are
at most `n` of them, as nowhere in that generation `n + 1` failures are in a row. While it is closed
the breaker opens with the failure that it records as the last of `n + 1` in a row, and with no other
action. -/
theorem opens_at_first_run_of_failures (p : BreakerPolicy) (n : Nat) (start : Duration)
    (actions : List Action) :
    let q := { p with trips := some (BreakerPolicy.consecutive n) }
    let u := (fresh q start).run q actions
    let past := outcomesOf u.breaker.generation ((fresh q start).outcomes q actions)
    u.breaker.counts.consecutiveFailures = trailingFailures past ∧
    u.breaker.counts.consecutiveFailures ≤ n ∧
    ¬ List.replicate (n + 1) false <:+: past ∧
    (u.breaker.state = .closed → ∀ a : Action,
      (u.step q a).breaker.state = .opened ↔
        u.recorded q a = some ⟨u.breaker.generation, false⟩ ∧
          List.replicate (n + 1) false <:+ past ++ [false]) := by
  intro q u past
  have hp : q.trips = some (BreakerPolicy.consecutive n) := rfl
  have hsound : Sound q u := sound_run_fresh q start actions
  have htally : Tallied n u.breaker ((fresh q start).outcomes q actions) :=
    (sound_fresh q start).tallied_run hp (tallied_fresh q n start) actions
  have hfew : trailingFailures past ≤ n := by
    by_contra hmany
    exact htally.calm ((replicate_suffix_iff _ _).mpr (Nat.not_le.mp hmany)).isInfix
  refine ⟨htally.streak, htally.streak ▸ hfew, htally.calm, fun hs a => ?_⟩
  rw [hsound.opens_iff hs a, tripsAt_consecutive hp, replicate_suffix_iff, trailingFailures_concat,
    decide_eq_true_iff, Counts.fail, htally.streak]
  simp only [Bool.false_eq_true, if_false]
  exact and_congr_right fun _ => Iff.rfl

/-- Of two failures with a success in between, the latter of which is reported first, no breaker that
trips at more than one failure in a row opens; the next failure opens it. -/
example :
    let p : BreakerPolicy := { name := "backend", trips := some (BreakerPolicy.consecutive 1) }
    let call : Call := ⟨.closed, 0⟩
    let u := (fresh p 0).run p
      [.enter, .enter, .enter, .enter, .settle call false, .settle call true, .settle call false]
    u.breaker.state = .closed ∧ (u.step p (.settle call false)).breaker.state = .opened := by
  decide

end Usage

end Gatehouse.Breaker
