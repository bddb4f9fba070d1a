import Gatehouse.RateLimit.Bucket
import Mathlib.Data.Rat.Floor
import Mathlib.Tactic.Linarith
import Mathlib.Tactic.Ring

/-!
# How much a bucket lets through

Buckets are counted in exact numbers here. What a call takes and what it leaves is what was there
and what was gained since, up to the burst (`tokens_allow`), so the calls of a run are paid for by
the tokens at its start and the gains of its time (`countP_allowed_le`). The first call of any
window of a run finds no more than the burst, which bounds the calls allowed in that window.
-/

namespace Gatehouse

/-- Exact numbers. -/
instance : Amount ℚ where
  ofNat n := n
  seconds d := d / 1000000000
  add a b := a + b
  sub a b := a - b
  mul a b := a * b
  le a b := decide (a ≤ b)
  wholePart x := ⌊x⌋₊

/-- The tokens that a decision takes. -/
def Decision.cost (d : Decision) : ℚ := if d.allowed then 1 else 0

namespace TokenBucket

/-! ## Runs of calls -/

section Run

variable {α : Type} [Amount α]

/-- The decisions of calls at some instants, each with the bucket that the call leaves. -/
def run (b : TokenBucket α) : List Duration → List (Decision × TokenBucket α)
  | [] => []
  | now :: later => b.allow now :: run (b.allow now).2 later

/-- The bucket that calls at some instants leave. -/
def after (b : TokenBucket α) (times : List Duration) : TokenBucket α :=
  times.foldl (fun b now => (b.allow now).2) b

@[simp] theorem rate_allow (b : TokenBucket α) (now : Duration) :
    (b.allow now).2.rate = b.rate := rfl

@[simp] theorem burst_allow (b : TokenBucket α) (now : Duration) :
    (b.allow now).2.burst = b.burst := rfl

@[simp] theorem updated_allow (b : TokenBucket α) (now : Duration) :
    (b.allow now).2.updated = now := rfl

@[simp] theorem remaining_allow (b : TokenBucket α) (now : Duration) :
    (b.allow now).1.remaining = Amount.wholePart (b.allow now).2.tokens := rfl

@[simp] theorem length_run (b : TokenBucket α) (times : List Duration) :
    (b.run times).length = times.length := by
  induction times generalizing b with
  | nil => rfl
  | cons now later ih => rw [run, List.length_cons, ih, List.length_cons]

theorem take_run (b : TokenBucket α) (times : List Duration) (n : Nat) :
    (b.run times).take n = b.run (times.take n) := by
  induction times generalizing b n with
  | nil => rw [run, List.take_nil, List.take_nil, run]
  | cons now later ih =>
    cases n with
    | zero => rfl
    | succ n => rw [run, List.take_succ_cons, List.take_succ_cons, run, ih]

theorem drop_run (b : TokenBucket α) (times : List Duration) (n : Nat) :
    (b.run times).drop n = (b.after (times.take n)).run (times.drop n) := by
  induction times generalizing b n with
  | nil => rw [run, List.drop_nil, List.drop_nil, run]
  | cons now later ih =>
    cases n with
    | zero => rfl
    | succ n =>
      rw [run, List.drop_succ_cons, List.take_succ_cons, List.drop_succ_cons, ih]
      rfl

theorem run_append (b : TokenBucket α) (times later : List Duration) :
    b.run (times ++ later) = b.run times ++ (b.after times).run later := by
  induction times generalizing b with
  | nil => rfl
  | cons now times ih =>
    rw [List.cons_append, run, run, ih, List.cons_append]
    rfl

theorem after_append (b : TokenBucket α) (times later : List Duration) :
    b.after (times ++ later) = (b.after times).after later :=
  List.foldl_append

@[simp] theorem rate_after (b : TokenBucket α) (times : List Duration) :
    (b.after times).rate = b.rate := by
  induction times generalizing b with
  | nil => rfl
  | cons now later ih => exact (ih _).trans (rate_allow b now)

@[simp] theorem burst_after (b : TokenBucket α) (times : List Duration) :
    (b.after times).burst = b.burst := by
  induction times generalizing b with
  | nil => rfl
  | cons now later ih => exact (ih _).trans (burst_allow b now)

/-- Whether new buckets stay full until they are used. -/
def StaysFull (rate : α) (burst : Nat) : Prop :=
  ∀ start now, (full rate burst start).refill now = full rate burst now

/-- Where new buckets stay full it does not matter when they were created. -/
theorem StaysFull.run_eq {rate : α} {burst : Nat} (h : StaysFull rate burst)
    (start start' : Duration) (times : List Duration) :
    (full rate burst start).run times = (full rate burst start').run times := by
  cases times with
  | nil => rfl
  | cons first later => rw [run, run, allow, allow, h start, h start']

end Run

/-! ## One call -/

variable {b : TokenBucket ℚ} {now : Duration}

/-- A bucket that holds no less than nothing and no more than its burst. -/
structure Sound (b : TokenBucket ℚ) : Prop where
  rate : 0 ≤ b.rate
  tokens_nonneg : 0 ≤ b.tokens
  tokens_le : b.tokens ≤ b.burst

theorem seconds_sub {earlier later : Duration} (h : earlier ≤ later) :
    Amount.seconds (later - earlier) = ((later : ℚ) - earlier) / 1000000000 := by
  show ((later - earlier : Nat) : ℚ) / 1000000000 = _
  rw [Nat.cast_sub h]

theorem seconds_nonneg (d : Duration) : (0 : ℚ) ≤ Amount.seconds d :=
  div_nonneg (Nat.cast_nonneg d) (by norm_num)

/-- A refilled bucket holds what was there and what was gained since, up to the burst. -/
theorem tokens_refill (b : TokenBucket ℚ) (now : Duration) :
    (b.refill now).tokens =
      min (b.tokens + Amount.seconds (now - b.updated) * b.rate) b.burst := by
  simp only [refill, Amount.le, Amount.add, Amount.mul, decide_eq_true_eq]
  rw [min_def]

/-- A call is allowed if there is a token, which it then takes. -/
theorem allow_cases (b : TokenBucket ℚ) (now : Duration) :
    (1 ≤ (b.refill now).tokens ∧ (b.allow now).1.allowed = true ∧
      (b.allow now).2.tokens = (b.refill now).tokens - 1) ∨
    ((b.refill now).tokens < 1 ∧ (b.allow now).1.allowed = false ∧
      (b.allow now).2.tokens = (b.refill now).tokens) := by
  by_cases h : 1 ≤ (b.refill now).tokens
  · left
    have hle : Amount.le (Amount.ofNat 1) (b.refill now).tokens = true := by
      simpa [Amount.le, Amount.ofNat] using h
    refine ⟨h, hle, ?_⟩
    simp only [allow, take, hle, if_true]
    simp [Amount.sub, Amount.ofNat]
  · right
    have hle : Amount.le (Amount.ofNat 1) (b.refill now).tokens = false := by
      simpa [Amount.le, Amount.ofNat] using h
    refine ⟨not_le.mp h, hle, ?_⟩
    simp only [allow, take, hle, Bool.false_eq_true, if_false]

/-- What a call takes and what it leaves is what it found. -/
theorem tokens_allow (b : TokenBucket ℚ) (now : Duration) :
    (b.allow now).2.tokens + (b.allow now).1.cost =
      min (b.tokens + Amount.seconds (now - b.updated) * b.rate) b.burst := by
  rw [← tokens_refill]
  rcases allow_cases b now with ⟨-, hallowed, htokens⟩ | ⟨-, hdenied, htokens⟩
  · rw [htokens, Decision.cost, hallowed, if_pos rfl, sub_add_cancel]
  · rw [htokens, Decision.cost, hdenied, if_neg Bool.false_ne_true, add_zero]

theorem Sound.allow (h : Sound b) (now : Duration) : Sound (b.allow now).2 := by
  have hgained : 0 ≤ Amount.seconds (now - b.updated) * b.rate :=
    mul_nonneg (seconds_nonneg _) h.rate
  have hrefilled : 0 ≤ (b.refill now).tokens ∧ (b.refill now).tokens ≤ b.burst := by
    rw [tokens_refill]
    exact ⟨le_min (add_nonneg h.tokens_nonneg hgained) (h.tokens_nonneg.trans h.tokens_le),
      min_le_right _ _⟩
  rcases allow_cases b now with ⟨htoken, -, htokens⟩ | ⟨-, -, htokens⟩
  · refine ⟨h.rate, ?_, ?_⟩
    · rw [htokens]
      exact sub_nonneg.mpr htoken
    · rw [htokens, burst_allow]
      linarith [hrefilled.2]
  · refine ⟨h.rate, ?_, ?_⟩
    · rw [htokens]
      exact hrefilled.1
    · rw [htokens, burst_allow]
      exact hrefilled.2

/-- A denied call finds less than a whole token. -/
theorem remaining_of_denied (h : (b.allow now).1.allowed = false) :
    (b.allow now).1.remaining = 0 := by
  rcases allow_cases b now with ⟨-, hallowed, -⟩ | ⟨hlt, -, htokens⟩
  · rw [hallowed] at h
    cases h
  · rw [remaining_allow, htokens]
    exact Nat.floor_eq_zero.mpr hlt

theorem sound_full {rate : ℚ} (hrate : 0 ≤ rate) (burst : Nat) (now : Duration) :
    Sound (full rate burst now) where
  rate := hrate
  tokens_nonneg := Nat.cast_nonneg burst
  tokens_le := le_refl _

/-- In exact numbers new buckets stay full, at any rate that is not negative. -/
theorem staysFull {rate : ℚ} (hrate : 0 ≤ rate) (burst : Nat) : StaysFull rate burst := by
  intro start now
  have hgained : 0 ≤ Amount.seconds (now - start) * rate := mul_nonneg (seconds_nonneg _) hrate
  have htokens : ((full rate burst start).refill now).tokens = burst := by
    rw [tokens_refill]
    exact min_eq_right (le_add_of_nonneg_right hgained)
  have hfields : (full rate burst start).refill now =
      { full rate burst now with tokens := ((full rate burst start).refill now).tokens } := rfl
  rw [hfields, htokens]
  rfl

/-! ## Every run -/

theorem Sound.after (h : Sound b) (times : List Duration) : Sound (b.after times) := by
  induction times generalizing b with
  | nil => exact h
  | cons now later ih => exact ih (h.allow now)

/-- Every call of a run leaves a sound bucket of the same burst, and tells a denied caller that
nothing remains. -/
theorem Sound.of_mem_run (h : Sound b) {times : List Duration} {call : Decision × TokenBucket ℚ}
    (hcall : call ∈ b.run times) :
    Sound call.2 ∧ call.2.burst = b.burst ∧ (call.1.allowed = false → call.1.remaining = 0) := by
  induction times generalizing b with
  | nil => cases hcall
  | cons now later ih =>
    rcases List.mem_cons.mp hcall with rfl | hlater
    · exact ⟨h.allow now, burst_allow b now, remaining_of_denied⟩
    · obtain ⟨hsound, hburst, hdenied⟩ := ih (h.allow now) hlater
      exact ⟨hsound, hburst.trans (burst_allow b now), hdenied⟩

theorem countP_run_cons (b : TokenBucket ℚ) (now : Duration) (later : List Duration) :
    ((b.run (now :: later)).countP (·.1.allowed) : ℚ) =
      ((b.allow now).2.run later).countP (·.1.allowed) + (b.allow now).1.cost := by
  rw [run, List.countP_cons, Nat.cast_add, Decision.cost]
  split <;> rfl

/-- The calls allowed up to an instant are paid for by the tokens of the bucket and by what it gains
up to that instant. -/
theorem Sound.countP_allowed_le (h : Sound b) {times : List Duration} {last : Duration}
    (hsorted : (b.updated :: times).Pairwise (· ≤ ·)) (hlast : ∀ t ∈ b.updated :: times, t ≤ last) :
    ((b.run times).countP (·.1.allowed) : ℚ) ≤
      b.tokens + b.rate * (((last : ℚ) - b.updated) / 1000000000) := by
  induction times generalizing b with
  | nil =>
    have hle : b.updated ≤ last := hlast _ List.mem_cons_self
    rw [← seconds_sub hle]
    exact add_nonneg h.tokens_nonneg (mul_nonneg h.rate (seconds_nonneg _))
  | cons now later ih =>
    rw [List.pairwise_cons] at hsorted
    have hnow : b.updated ≤ now := hsorted.1 now List.mem_cons_self
    have hrest := ih (h.allow now) hsorted.2 fun t ht => hlast t (List.mem_cons_of_mem _ ht)
    have hcall : (b.allow now).2.tokens + (b.allow now).1.cost ≤
        b.tokens + Amount.seconds (now - b.updated) * b.rate :=
      tokens_allow b now ▸ min_le_left _ _
    rw [seconds_sub hnow] at hcall
    rw [rate_allow, updated_allow] at hrest
    rw [countP_run_cons]
    linarith

/-- In a run of calls at instants in order, the calls allowed in a window are at most the burst and
what the rate gives over the time of the window. -/
theorem Sound.countP_window_le (h : Sound b) {now last : Duration} {later : List Duration}
    (hsorted : (now :: later).Pairwise (· ≤ ·)) (hlast : ∀ t ∈ now :: later, t ≤ last) :
    ((b.run (now :: later)).countP (·.1.allowed) : ℚ) ≤
      b.burst + b.rate * (((last : ℚ) - now) / 1000000000) := by
  have hrest := (h.allow now).countP_allowed_le hsorted hlast
  -- whatever was gained before the window, the first call finds at most the burst
  have hcall : (b.allow now).2.tokens + (b.allow now).1.cost ≤ b.burst :=
    tokens_allow b now ▸ min_le_right _ _
  rw [rate_allow, updated_allow] at hrest
  rw [countP_run_cons]
  linarith

/-- **A bucket keeps to its burst and its rate in every window of a run.** Whenever calls are made
of a new bucket at instants in order, it never holds less than nothing or more than its burst, a
denied caller is told that nothing remains, and from any call to any later one no more calls are
allowed than the burst and what the rate gives over the time between the two. -/
theorem allowed_in_window_le {rate : ℚ} (hrate : 0 ≤ rate) (burst : Nat) (start : Duration)
    {times : List Duration} (hsorted : times.Pairwise (· ≤ ·)) :
    let calls := (full rate burst start).run times
    calls.length = times.length ∧
    (∀ call ∈ calls, 0 ≤ call.2.tokens ∧ call.2.tokens ≤ burst ∧
      (call.1.allowed = false → call.1.remaining = 0)) ∧
    ∀ i j (hij : i ≤ j) (hj : j < times.length),
      (((calls.take (j + 1)).drop i).countP (·.1.allowed) : ℚ) ≤
        burst + rate * (((times[j] : ℚ) - (times[i] : ℚ)) / 1000000000) := by
  intro calls
  have hfull : Sound (full rate burst start) := sound_full hrate burst start
  refine ⟨length_run _ _, fun call hcall => ?_, fun i j hij hj => ?_⟩
  · obtain ⟨hsound, hburst, hdenied⟩ := hfull.of_mem_run hcall
    exact ⟨hsound.tokens_nonneg, hsound.tokens_le.trans (le_of_eq hburst), hdenied⟩
  · -- the window is the run of its own instants from the bucket that the calls before it leave
    have hi : i < (times.take (j + 1)).length := by
      rw [List.length_take]
      omega
    have hwindow : (times.take (j + 1)).drop i =
        times[i] :: (times.take (j + 1)).drop (i + 1) := by
      rw [List.drop_eq_getElem_cons hi, List.getElem_take]
    have hsub : ((times.take (j + 1)).drop i).Sublist times :=
      (List.drop_sublist _ _).trans (List.take_sublist _ _)
    have hlast : ∀ t ∈ (times.take (j + 1)).drop i, t ≤ times[j] := by
      intro t ht
      obtain ⟨k, hk, rfl⟩ := List.mem_iff_getElem.mp (List.mem_of_mem_drop ht)
      rw [List.length_take] at hk
      rw [List.getElem_take]
      rcases Nat.lt_or_eq_of_le (show k ≤ j by omega) with hlt | rfl
      · exact List.pairwise_iff_getElem.mp hsorted k j _ hj hlt
      · exact le_refl _
    have hsorted' := hsorted.sublist hsub
    rw [hwindow] at hsorted' hlast
    have hbound := (hfull.after ((times.take (j + 1)).take i)).countP_window_le hsorted' hlast
    rw [take_run, drop_run, hwindow]
    rw [burst_after, rate_after] at hbound
    exact hbound

/-- Of five calls within two seconds, a bucket of two tokens that gains one in two seconds allows
three: as many as it may. -/
theorem allowed_in_window_five_calls :
    let times := [0, 0, 0, Duration.ofSeconds 2, Duration.ofSeconds 2]
    let calls := (full (1 / 2 : ℚ) 2 0).run times
    (0 : ℚ) ≤ 1 / 2 ∧ times.Pairwise (· ≤ ·) ∧
    calls.map (·.1.allowed) = [true, true, false, true, false] ∧
    (((calls.take 5).drop 0).countP (·.1.allowed) : ℚ) ≤
      2 + 1 / 2 * ((2000000000 - 0) / 1000000000) := by
  intro times calls
  have hrate : (0 : ℚ) ≤ 1 / 2 := by norm_num
  have hsorted : times.Pairwise (· ≤ ·) := by decide
  refine ⟨hrate, hsorted, by decide +kernel, ?_⟩
  obtain ⟨-, -, hwindow⟩ := allowed_in_window_le hrate 2 0 hsorted
  exact_mod_cast hwindow 0 4 (by decide) (by decide)

end TokenBucket

end Gatehouse
