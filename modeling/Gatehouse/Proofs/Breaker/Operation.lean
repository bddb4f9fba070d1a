import Gatehouse.Breaker.Basic

/-!
# What one operation does to a breaker

Every operation of a breaker first does what is due, then counts something or goes over to a new
generation. `Begun` says all that a new generation starts with, also where its end cannot be told,
and the case lemmas say for each operation which of the two happens and under which conditions. Only
a generation that begins can make an operation panic.
-/

namespace Gatehouse

/-- The counts after one more outcome. -/
def Counts.withOutcome (c : Counts) (success : Bool) : Counts :=
  if success then c.succeed else c.fail

namespace Breaker

variable {p : BreakerPolicy} {b : Breaker} {now : Duration} {r : Except Panic Unit × Breaker}

/-- Whether a breaker has something to do by an instant. -/
def IsDue (b : Breaker) (now : Duration) : Prop := ∃ expiry, b.expiry = some expiry ∧ expiry ≤ now

/-- An operation begins a generation of state `s` at an instant. If the end of the generation cannot
be told, the operation panics with that end and the report of the change left undone. -/
structure Begun (p : BreakerPolicy) (b : Breaker) (s : BreakerState) (now : Duration)
    (r : Except Panic Unit × Breaker) : Prop where
  result : r.1 = if expiryFits p s now then .ok () else .error .overflow
  state : r.2.state = s
  generation : r.2.generation = b.generation + 1
  counts : r.2.counts = {}
  expiry : r.2.expiry = if expiryFits p s now then expiryOf p s now else b.expiry
  totalRequests : r.2.totalRequests = b.totalRequests
  changes : r.2.changes =
    if b.state ≠ s ∧ expiryFits p s now then b.changes ++ [(b.state, s)] else b.changes

/-- The breaker with one more call admitted under its generation. -/
def withCall (b : Breaker) : Breaker :=
  { b with counts := b.counts.enter, totalRequests := b.totalRequests + 1 }

/-! ## New generations -/

theorem begun_renew (p : BreakerPolicy) (b : Breaker) (now : Duration) :
    Begun p b b.state now (renew p b now) := by
  have hsame : ¬ (b.state ≠ b.state ∧ expiryFits p b.state now = true) := fun h => h.1 rfl
  rw [renew]
  by_cases hfits : expiryFits p b.state now = true
  · rw [if_pos hfits]
    exact ⟨(if_pos hfits).symm, rfl, rfl, rfl, (if_pos hfits).symm, rfl, (if_neg hsame).symm⟩
  · rw [if_neg hfits]
    exact ⟨(if_neg hfits).symm, rfl, rfl, rfl, (if_neg hfits).symm, rfl, (if_neg hsame).symm⟩

theorem begun_change {s : BreakerState} (h : b.state ≠ s) : Begun p b s now (change p b s now) := by
  rw [change, if_neg h, renew]
  by_cases hfits : expiryFits p s now = true
  · rw [if_pos hfits]
    exact ⟨(if_pos hfits).symm, rfl, rfl, rfl, (if_pos hfits).symm, rfl, (if_pos ⟨h, hfits⟩).symm⟩
  · rw [if_neg hfits]
    exact ⟨(if_neg hfits).symm, rfl, rfl, rfl, (if_neg hfits).symm, rfl,
      (if_neg fun h => hfits h.2).symm⟩

/-- A generation only depends on the state, the number, the end and the total of the one before. -/
theorem Begun.of_counts {c : Counts} {s : BreakerState}
    (h : Begun p { b with counts := c } s now r) : Begun p b s now r :=
  ⟨h.result, h.state, h.generation, h.counts, h.expiry, h.totalRequests, h.changes⟩

/-- A reset begins a generation of a closed breaker. -/
theorem begun_reset (p : BreakerPolicy) (b : Breaker) (now : Duration) :
    Begun p b .closed now (reset p b now) := by
  by_cases h : b.state = .closed
  · rw [reset, if_pos h, ← h]
    exact begun_renew p b now
  · rw [reset, if_neg h]
    exact begun_change h

/-- Where the end of a generation can be told it begins without a panic. -/
theorem Begun.fits_iff {s : BreakerState} (h : Begun p b s now r) :
    expiryFits p s now = true ↔ r.1 = .ok () := by
  rw [h.result]
  split <;> simp_all

/-! ## Reading -/

theorem isDue_iff : b.expiry.any (fun expiry => decide (expiry ≤ now)) = true ↔ IsDue b now := by
  simp [Option.any_eq_true, IsDue]

theorem refresh_of_not_isDue (h : ¬ IsDue b now) : refresh p b now = (.ok (), b) := by
  rw [refresh, if_neg (fun hany => h (isDue_iff.mp hany))]

/-- What is due at an instant is due later. -/
theorem IsDue.mono {later : Duration} (h : IsDue b now) (hle : now ≤ later) : IsDue b later := by
  obtain ⟨expiry, he, hnow⟩ := h
  exact ⟨expiry, he, Nat.le_trans hnow hle⟩

theorem not_isDue_of_lt {expiry : Duration} (h : b.expiry = some expiry) (hlt : now < expiry) :
    ¬ IsDue b now := by
  rintro ⟨e, he, hle⟩
  rw [h, Option.some.injEq] at he
  exact Nat.not_lt.mpr hle (he ▸ hlt)

theorem refresh_of_halfOpen (h : b.state = .halfOpen) : refresh p b now = (.ok (), b) := by
  rw [refresh]
  split
  · rw [h]
  · rfl

theorem begun_refresh_of_closed (h : b.state = .closed) (hdue : IsDue b now) :
    Begun p b .closed now (refresh p b now) := by
  have heq : refresh p b now = renew p b now := by
    simp only [refresh, if_pos (isDue_iff.mpr hdue), h]
  rw [heq, ← h]
  exact begun_renew p b now

theorem begun_refresh_of_opened (h : b.state = .opened) (hdue : IsDue b now) :
    Begun p b .halfOpen now (refresh p b now) := by
  have heq : refresh p b now = change p b .halfOpen now := by
    simp only [refresh, if_pos (isDue_iff.mpr hdue), h]
  rw [heq]
  exact begun_change (by simp [h])

/-- Reading leaves a breaker as it is, or begins the generation that is due. -/
theorem refresh_cases (p : BreakerPolicy) (b : Breaker) (now : Duration) :
    refresh p b now = (.ok (), b) ∨
    (b.state = .closed ∧ IsDue b now ∧ Begun p b .closed now (refresh p b now)) ∨
    (b.state = .opened ∧ IsDue b now ∧ Begun p b .halfOpen now (refresh p b now)) := by
  by_cases hdue : IsDue b now
  · cases hs : b.state with
    | closed => exact .inr (.inl ⟨rfl, hdue, begun_refresh_of_closed hs hdue⟩)
    | opened => exact .inr (.inr ⟨rfl, hdue, begun_refresh_of_opened hs hdue⟩)
    | halfOpen => exact .inl (refresh_of_halfOpen hs)
  · exact .inl (refresh_of_not_isDue hdue)

/-- Reading never goes back to an earlier generation. -/
theorem generation_le_refresh (p : BreakerPolicy) (b : Breaker) (now : Duration) :
    b.generation ≤ (refresh p b now).2.generation := by
  rcases refresh_cases p b now with h | ⟨-, -, h⟩ | ⟨-, -, h⟩
  · exact Nat.le_of_eq (congrArg (fun r => r.2.generation) h.symm)
  · exact h.generation ▸ Nat.le_succ _
  · exact h.generation ▸ Nat.le_succ _

theorem totalRequests_refresh (p : BreakerPolicy) (b : Breaker) (now : Duration) :
    (refresh p b now).2.totalRequests = b.totalRequests := by
  rcases refresh_cases p b now with h | ⟨-, -, h⟩ | ⟨-, -, h⟩
  · rw [h]
  · exact h.totalRequests
  · exact h.totalRequests

/-- Where reading panics a generation has begun nevertheless. -/
theorem generation_of_refresh_error {panic : Panic} (h : (refresh p b now).1 = .error panic) :
    (refresh p b now).2.generation = b.generation + 1 := by
  rcases refresh_cases p b now with heq | ⟨-, -, hb⟩ | ⟨-, -, hb⟩
  · rw [heq] at h
    cases h
  · exact hb.generation
  · exact hb.generation

/-- An open breaker becomes half open without a panic. -/
theorem refresh_ok_of_opened (h : b.state = .opened) : (refresh p b now).1 = .ok () := by
  rcases refresh_cases p b now with heq | ⟨hs, -, -⟩ | ⟨-, -, hb⟩
  · rw [heq]
  · exact absurd (hs.symm.trans h) (by decide)
  · exact hb.fits_iff.mp rfl

/-! ## Ends on the timeline -/

/-- The end of a generation is on the timeline. -/
def EndFits (b : Breaker) : Prop := ∀ expiry, b.expiry = some expiry → Instant.fits expiry = true

theorem endFits_of_begun {s : BreakerState} (h : EndFits b) (hb : Begun p b s now r) : EndFits r.2 := by
  intro expiry he
  rw [hb.expiry] at he
  by_cases hfits : expiryFits p s now = true
  · rw [if_pos hfits] at he
    rw [expiryFits, he] at hfits
    exact hfits
  · rw [if_neg hfits] at he
    exact h expiry he

theorem EndFits.refresh (h : EndFits b) (p : BreakerPolicy) (now : Duration) :
    EndFits (refresh p b now).2 := by
  rcases refresh_cases p b now with heq | ⟨-, -, hb⟩ | ⟨-, -, hb⟩
  · rw [heq]
    exact h
  · exact endFits_of_begun h hb
  · exact endFits_of_begun h hb

theorem openTimeout_pos (p : BreakerPolicy) : 0 < p.openTimeout := by
  rw [BreakerPolicy.openTimeout]
  split
  · decide
  · exact Nat.pos_of_ne_zero ‹_›

/-- An end that is on the timeline comes before one that is not. -/
theorem EndFits.lt_timeout {expiry : Duration} (h : EndFits b)
    (he : b.expiry = some expiry) (hunfit : ¬ expiryFits p .opened now = true) :
    expiry < now + p.openTimeout := by
  have hfits := h expiry he
  simp only [expiryFits, expiryOf, Option.all_some, Instant.fits, decide_eq_true_eq,
    Nat.not_lt] at hfits hunfit
  exact Nat.lt_of_lt_of_le hfits hunfit

/-! ## Admission -/

/-- Whether a breaker that has nothing due lets a call through. -/
def Admits (p : BreakerPolicy) (b : Breaker) : Prop :=
  b.state ≠ .opened ∧ (b.state = .halfOpen → b.counts.requests < p.probes)

theorem enter_of_refresh_error {panic : Panic} (h : (refresh p b now).1 = .error panic) :
    enter p b now = (.error panic, (refresh p b now).2) := by
  have heq : refresh p b now = (.error panic, (refresh p b now).2) := Prod.ext h rfl
  rw [enter, heq]

theorem enter_of_opened (h : (refresh p b now).1 = .ok ()) (hs : (refresh p b now).2.state = .opened) :
    enter p b now = (.ok (.error (.circuitOpen p.name)), (refresh p b now).2) := by
  have heq : refresh p b now = (.ok (), (refresh p b now).2) := Prod.ext h rfl
  generalize (refresh p b now).2 = b' at heq hs ⊢
  simp only [enter, heq, hs]

theorem enter_of_admits (h : (refresh p b now).1 = .ok ()) (hadmits : Admits p (refresh p b now).2) :
    enter p b now =
      (.ok (.ok (refresh p b now).2.generation), (refresh p b now).2.withCall) := by
  have heq : refresh p b now = (.ok (), (refresh p b now).2) := Prod.ext h rfl
  generalize (refresh p b now).2 = b' at heq hadmits ⊢
  obtain ⟨hopen, hprobes⟩ := hadmits
  cases hs : b'.state with
  | closed => simp only [enter, heq, hs, withCall]
  | opened => exact absurd hs hopen
  | halfOpen => simp only [enter, heq, hs, withCall, if_neg (Nat.not_le.mpr (hprobes hs))]

/-- A call is let through under the generation that is current after reading, or refused with no
effect beyond that of reading, or meets the panic of reading. -/
theorem enter_cases (p : BreakerPolicy) (b : Breaker) (now : Duration) :
    (Admits p (refresh p b now).2 ∧ enter p b now =
      (.ok (.ok (refresh p b now).2.generation), (refresh p b now).2.withCall)) ∨
    (¬ Admits p (refresh p b now).2 ∧
      ∃ e, enter p b now = (.ok (.error e), (refresh p b now).2)) ∨
    (∃ panic, (refresh p b now).1 = .error panic ∧
      enter p b now = (.error panic, (refresh p b now).2)) := by
  cases h : (refresh p b now).1 with
  | error panic => exact .inr (.inr ⟨panic, rfl, enter_of_refresh_error h⟩)
  | ok =>
    by_cases hadmits : Admits p (refresh p b now).2
    · exact .inl ⟨hadmits, enter_of_admits h hadmits⟩
    · refine .inr (.inl ⟨hadmits, ?_⟩)
      have heq : refresh p b now = (.ok (), (refresh p b now).2) := Prod.ext h rfl
      cases hs : (refresh p b now).2.state with
      | closed => exact absurd ⟨by simp [hs], by simp [hs]⟩ hadmits
      | opened => exact ⟨_, enter_of_opened h hs⟩
      | halfOpen =>
        have hfull : p.probes ≤ (refresh p b now).2.counts.requests :=
          Nat.not_lt.mp fun hlt => hadmits ⟨by simp [hs], fun _ => hlt⟩
        refine ⟨.halfOpenExhausted p.name, ?_⟩
        generalize (refresh p b now).2 = b' at heq hs hfull ⊢
        simp only [enter, heq, hs, if_pos hfull]

/-! ## Outcomes -/

/-- A success is dropped, or counted, or closes a half-open breaker. -/
theorem succeed_cases (p : BreakerPolicy) (b : Breaker) (now : Duration) :
    (b.state = .opened ∧ succeed p b now = (.ok (), b)) ∨
    (b.state ≠ .opened ∧
      (b.state = .halfOpen → b.counts.consecutiveSuccesses + 1 < p.probes) ∧
      succeed p b now = (.ok (), { b with counts := b.counts.succeed })) ∨
    (b.state = .halfOpen ∧ p.probes ≤ b.counts.consecutiveSuccesses + 1 ∧
      Begun p b .closed now (succeed p b now)) := by
  cases hs : b.state with
  | closed => exact .inr (.inl ⟨by simp, by simp, by simp only [succeed, hs]⟩)
  | opened => exact .inl ⟨rfl, by simp only [succeed, hs]⟩
  | halfOpen =>
    by_cases hlast : p.probes ≤ b.counts.consecutiveSuccesses + 1
    · refine .inr (.inr ⟨rfl, hlast, ?_⟩)
      have heq : succeed p b now = change p { b with counts := b.counts.succeed } .closed now := by
        simp only [succeed, hs, Counts.succeed, if_pos hlast]
      rw [heq]
      exact (begun_change (by simp [hs])).of_counts
    · refine .inr (.inl ⟨by simp, fun _ => Nat.not_le.mp hlast, ?_⟩)
      simp only [succeed, hs, Counts.succeed, if_neg hlast]

/-- A failure is dropped, or counted by a closed breaker that does not trip, or opens the
breaker. -/
theorem fail_cases (p : BreakerPolicy) (b : Breaker) (now : Duration) :
    (b.state = .opened ∧ fail p b now = (.ok (), b)) ∨
    (b.state = .closed ∧ fail p b now = (.ok (), { b with counts := b.counts.fail })) ∨
    (b.state ≠ .opened ∧ Begun p b .opened now (fail p b now)) := by
  cases hs : b.state with
  | closed =>
    by_cases htrip : p.tripsAt b.counts.fail = true
    · refine .inr (.inr ⟨by simp, ?_⟩)
      have heq : fail p b now = change p { b with counts := b.counts.fail } .opened now := by
        simp only [fail, hs, if_pos htrip]
      rw [heq]
      exact (begun_change (by simp [hs])).of_counts
    · exact .inr (.inl ⟨rfl, by simp only [fail, hs, if_neg htrip]⟩)
  | opened => exact .inl ⟨rfl, by simp only [fail, hs]⟩
  | halfOpen =>
    refine .inr (.inr ⟨by simp, ?_⟩)
    have heq : fail p b now = change p b .opened now := by simp only [fail, hs]
    rw [heq]
    exact begun_change (by simp [hs])

theorem settle_of_refresh_error {g : Nat} {success : Bool} {panic : Panic}
    (h : (refresh p b now).1 = .error panic) : settle p b g success now = refresh p b now := by
  have heq : refresh p b now = (.error panic, (refresh p b now).2) := Prod.ext h rfl
  rw [settle, heq]

theorem settle_of_refresh_ok {g : Nat} {success : Bool} (h : (refresh p b now).1 = .ok ()) :
    settle p b g success now =
      if (refresh p b now).2.generation ≠ g then refresh p b now
      else if success then succeed p (refresh p b now).2 now
      else fail p (refresh p b now).2 now := by
  have heq : refresh p b now = (.ok (), (refresh p b now).2) := Prod.ext h rfl
  rw [settle, heq]

theorem settle_of_ne {g : Nat} {success : Bool} (h : (refresh p b now).2.generation ≠ g) :
    settle p b g success now = refresh p b now := by
  cases hr : (refresh p b now).1 with
  | error panic => exact settle_of_refresh_error hr
  | ok => rw [settle_of_refresh_ok hr, if_pos h]

/-- An outcome is dropped, or counted under its generation, or closes a half-open breaker, or opens
one. Only a success is ever counted by a half-open breaker. -/
theorem settle_cases (p : BreakerPolicy) (b : Breaker) (g : Nat) (success : Bool) (now : Duration) :
    (((∃ panic, (refresh p b now).1 = .error panic) ∨ (refresh p b now).2.generation ≠ g ∨
        (refresh p b now).2.state = .opened) ∧
      settle p b g success now = refresh p b now) ∨
    ((refresh p b now).2.generation = g ∧ (refresh p b now).2.state ≠ .opened ∧
      ((refresh p b now).2.state = .halfOpen → success = true ∧
        (refresh p b now).2.counts.consecutiveSuccesses + 1 < p.probes) ∧
      settle p b g success now = (.ok (), { (refresh p b now).2 with
        counts := (refresh p b now).2.counts.withOutcome success })) ∨
    ((refresh p b now).2.generation = g ∧ success = true ∧
      (refresh p b now).2.state = .halfOpen ∧
      Begun p (refresh p b now).2 .closed now (settle p b g success now)) ∨
    ((refresh p b now).2.generation = g ∧ success = false ∧
      (refresh p b now).2.state ≠ .opened ∧
      Begun p (refresh p b now).2 .opened now (settle p b g success now)) := by
  cases hr : (refresh p b now).1 with
  | error panic => exact .inl ⟨.inl ⟨panic, rfl⟩, settle_of_refresh_error hr⟩
  | ok =>
    by_cases hg : (refresh p b now).2.generation = g
    · have hsame : refresh p b now = (.ok (), (refresh p b now).2) := Prod.ext hr rfl
      have heq : settle p b g success now =
          if success then succeed p (refresh p b now).2 now
          else fail p (refresh p b now).2 now := by
        rw [settle_of_refresh_ok hr, if_neg (fun hne => hne hg)]
      rw [heq]
      cases success with
      | true =>
        rw [if_pos rfl]
        rcases succeed_cases p (refresh p b now).2 now with ⟨hs, h⟩ | ⟨hs, hlt, h⟩ | ⟨hs, -, h⟩
        · exact .inl ⟨.inr (.inr hs), h.trans hsame.symm⟩
        · exact .inr (.inl ⟨hg, hs, fun hhalf => ⟨rfl, hlt hhalf⟩, h⟩)
        · exact .inr (.inr (.inl ⟨hg, rfl, hs, h⟩))
      | false =>
        rw [if_neg Bool.false_ne_true]
        rcases fail_cases p (refresh p b now).2 now with ⟨hs, h⟩ | ⟨hs, h⟩ | ⟨hs, h⟩
        · exact .inl ⟨.inr (.inr hs), h.trans hsame.symm⟩
        · exact .inr (.inl ⟨hg, by simp [hs], by simp [hs], h⟩)
        · exact .inr (.inr (.inr ⟨hg, rfl, hs, h⟩))
    · exact .inl ⟨.inr (.inl hg), settle_of_ne hg⟩

theorem totalRequests_settle (p : BreakerPolicy) (b : Breaker) (g : Nat) (success : Bool)
    (now : Duration) : (settle p b g success now).2.totalRequests = b.totalRequests := by
  rw [← totalRequests_refresh p b now]
  rcases settle_cases p b g success now with
    ⟨-, h⟩ | ⟨-, -, -, h⟩ | ⟨-, -, -, h⟩ | ⟨-, -, -, h⟩
  · rw [h]
  · rw [h]
  · exact h.totalRequests
  · exact h.totalRequests

/-! ## Panics -/

/-- A report that does not panic takes nothing from the caller. -/
theorem CallFate.delivered_ok {α : Type} (fate : CallFate α) : fate.delivered (.ok ()) = .ok fate := by
  cases fate <;> rfl

/-- A generation that begins is all that can go wrong. -/
theorem Begun.result_cases {s : BreakerState} (h : Begun p b s now r) :
    r.1 = .ok () ∨ (r.1 = .error .overflow ∧ ∃ s, expiryFits p s now = false) := by
  cases hfits : expiryFits p s now with
  | true => exact .inl (h.fits_iff.mp hfits)
  | false => exact .inr ⟨by rw [h.result, hfits]; rfl, s, hfits⟩

theorem refresh_result_cases (p : BreakerPolicy) (b : Breaker) (now : Duration) :
    (refresh p b now).1 = .ok () ∨
      ((refresh p b now).1 = .error .overflow ∧ ∃ s, expiryFits p s now = false) := by
  rcases refresh_cases p b now with h | ⟨-, -, h⟩ | ⟨-, -, h⟩
  · exact .inl (congrArg Prod.fst h)
  · exact h.result_cases
  · exact h.result_cases

/-- Asking panics only where the end of a generation cannot be told. -/
theorem enter_result_cases (p : BreakerPolicy) (b : Breaker) (now : Duration) :
    (∃ answer, (enter p b now).1 = .ok answer) ∨
      ((enter p b now).1 = .error .overflow ∧ ∃ s, expiryFits p s now = false) := by
  rcases enter_cases p b now with ⟨-, h⟩ | ⟨-, e, h⟩ | ⟨panic, hpanic, h⟩
  · exact .inl ⟨_, congrArg Prod.fst h⟩
  · exact .inl ⟨_, congrArg Prod.fst h⟩
  · have hread := refresh_result_cases p b now
    rw [hpanic] at hread
    rw [h]
    rcases hread with hok | ⟨hoverflow, hunfit⟩
    · cases hok
    · cases hoverflow
      exact .inr ⟨rfl, hunfit⟩

/-- Reporting panics only where the end of a generation cannot be told. -/
theorem settle_result_cases (p : BreakerPolicy) (b : Breaker) (g : Nat) (success : Bool)
    (now : Duration) :
    (settle p b g success now).1 = .ok () ∨
      ((settle p b g success now).1 = .error .overflow ∧ ∃ s, expiryFits p s now = false) := by
  rcases settle_cases p b g success now with
    ⟨-, h⟩ | ⟨-, -, -, h⟩ | ⟨-, -, -, h⟩ | ⟨-, -, -, h⟩
  · exact h ▸ refresh_result_cases p b now
  · exact .inl (congrArg Prod.fst h)
  · exact h.result_cases
  · exact h.result_cases

end Breaker

end Gatehouse
