import Gatehouse.Proofs.RateLimit.Bucket
import Mathlib.Tactic.IntervalCases
import Mathlib.Tactic.NormNum

/-!
# Callers that keep within a rate and a burst

A caller conforms to a rate and a burst if none of its windows holds more calls than the burst and
what the rate gives over the time of the window. A bucket allows every call of a caller exactly if
the caller conforms. The tokens that a call finds are the least of what each earlier call leaves
room for, since the burst caps them at every call; `PaysFor` says of one such amount that it covers
all calls from an instant on, and `paysFor_min` that the least of two covers them if both do.
-/

namespace Gatehouse.TokenBucket

/-- No window of calls holds more than the burst and what the rate gives over its time. -/
def Conforms (rate burst : ℚ) (times : List Duration) : Prop :=
  ∀ i j (_ : i < times.length) (_ : j < times.length), i ≤ j →
    ((j - i + 1 : ℕ) : ℚ) ≤ burst + rate * (((times[j] : ℚ) - (times[i] : ℚ)) / 1000000000)

/-- So many tokens at an instant, and the gains from there on, are enough for each of the calls and
all calls before it. -/
def PaysFor (rate tokens : ℚ) (since : Duration) (times : List Duration) : Prop :=
  ∀ j (_ : j < times.length),
    ((j + 1 : ℕ) : ℚ) ≤ tokens + rate * (((times[j] : ℚ) - (since : ℚ)) / 1000000000)

variable {rate burst tokens tokens' : ℚ} {b : TokenBucket ℚ} {now since : Duration}
  {times : List Duration}

/-! ## What tokens pay for -/

theorem paysFor_min :
    PaysFor rate (min tokens tokens') since times ↔
      PaysFor rate tokens since times ∧ PaysFor rate tokens' since times := by
  constructor
  · intro h
    constructor
    · intro j hj
      exact (h j hj).trans (add_le_add_left (min_le_left _ _) _)
    · intro j hj
      exact (h j hj).trans (add_le_add_left (min_le_right _ _) _)
  · rintro ⟨h, h'⟩ j hj
    rcases min_choice tokens tokens' with heq | heq
    · rw [heq]
      exact h j hj
    · rw [heq]
      exact h' j hj

/-- Waiting adds the gains of its time. -/
theorem paysFor_wait (now : Duration) :
    PaysFor rate tokens since times ↔
      PaysFor rate (tokens + rate * (((now : ℚ) - (since : ℚ)) / 1000000000)) now times := by
  have hshift (t : Duration) :
      tokens + rate * (((t : ℚ) - (since : ℚ)) / 1000000000) =
        tokens + rate * (((now : ℚ) - (since : ℚ)) / 1000000000) +
          rate * (((t : ℚ) - (now : ℚ)) / 1000000000) := by
    ring
  constructor
  · intro h j hj
    rw [← hshift]
    exact h j hj
  · intro h j hj
    rw [hshift]
    exact h j hj

/-- The first of the calls takes one token. -/
theorem paysFor_cons :
    PaysFor rate tokens now (now :: times) ↔ 1 ≤ tokens ∧ PaysFor rate (tokens - 1) now times := by
  constructor
  · intro h
    constructor
    · simpa using h 0 (Nat.succ_pos _)
    · intro j hj
      have hcall := h (j + 1) (Nat.succ_lt_succ hj)
      rw [List.getElem_cons_succ] at hcall
      push_cast at hcall ⊢
      linarith
  · rintro ⟨hone, hrest⟩ j hj
    cases j with
    | zero => simpa using hone
    | succ j =>
      have hcall := hrest j (Nat.lt_of_succ_lt_succ hj)
      rw [List.getElem_cons_succ]
      push_cast at hcall ⊢
      linarith

/-- The windows of some calls are those that begin with the first call and those of the others. -/
theorem conforms_cons :
    Conforms rate burst (now :: times) ↔
      PaysFor rate burst now (now :: times) ∧ Conforms rate burst times := by
  constructor
  · intro h
    constructor
    · intro j hj
      simpa using h 0 j (Nat.succ_pos _) hj (Nat.zero_le j)
    · intro i j hi hj hij
      have hwindow := h (i + 1) (j + 1) (Nat.succ_lt_succ hi) (Nat.succ_lt_succ hj)
        (Nat.succ_le_succ hij)
      rw [Nat.add_sub_add_right] at hwindow
      exact hwindow
  · rintro ⟨hfirst, hrest⟩ i j hi hj hij
    cases i with
    | zero => exact hfirst j hj
    | succ i =>
      obtain ⟨j, rfl⟩ : ∃ k, j = k + 1 := ⟨j - 1, by omega⟩
      rw [Nat.add_sub_add_right]
      exact hrest i j (Nat.lt_of_succ_lt_succ hi) (Nat.lt_of_succ_lt_succ hj)
        (Nat.le_of_succ_le_succ hij)

/-! ## When every call is allowed -/

/-- A call is allowed exactly if it finds a token, and then leaves one less. -/
theorem allowed_iff (b : TokenBucket ℚ) (now : Duration) :
    (b.allow now).1.allowed = true ↔ 1 ≤ (b.refill now).tokens := by
  rcases allow_cases b now with ⟨hone, hallowed, -⟩ | ⟨hlt, hdenied, -⟩
  · exact ⟨fun _ => hone, fun _ => hallowed⟩
  · rw [hdenied]
    exact ⟨nofun, fun hone => absurd hone (not_le.mpr hlt)⟩

theorem tokens_of_allowed (h : 1 ≤ (b.refill now).tokens) :
    (b.allow now).2.tokens = (b.refill now).tokens - 1 := by
  rcases allow_cases b now with ⟨-, -, htokens⟩ | ⟨hlt, -, -⟩
  · exact htokens
  · exact absurd h (not_le.mpr hlt)

/-- A bucket allows every call of a run exactly if its tokens pay for all of them and the calls
conform to its rate and burst. -/
theorem forall_allowed_iff (hsorted : (b.updated :: times).Pairwise (· ≤ ·)) :
    (∀ call ∈ b.run times, call.1.allowed = true) ↔
      PaysFor b.rate b.tokens b.updated times ∧ Conforms b.rate b.burst times := by
  induction times generalizing b with
  | nil => exact ⟨fun _ => ⟨nofun, nofun⟩, fun _ => nofun⟩
  | cons now later ih =>
    rw [List.pairwise_cons] at hsorted
    have hnow : b.updated ≤ now := hsorted.1 now List.mem_cons_self
    have hrest := ih (b := (b.allow now).2) hsorted.2
    rw [rate_allow, burst_allow, updated_allow] at hrest
    -- the call finds the lesser of what there was with what was gained, and the burst
    have hfound : (b.refill now).tokens =
        min (b.tokens + b.rate * (((now : ℚ) - (b.updated : ℚ)) / 1000000000)) b.burst := by
      rw [tokens_refill, seconds_sub hnow, mul_comm]
    calc (∀ call ∈ b.run (now :: later), call.1.allowed = true)
      _ ↔ (b.allow now).1.allowed = true ∧
            ∀ call ∈ (b.allow now).2.run later, call.1.allowed = true := by
          rw [run, List.forall_mem_cons]
      _ ↔ 1 ≤ (b.refill now).tokens ∧
            PaysFor b.rate ((b.refill now).tokens - 1) now later ∧
            Conforms b.rate b.burst later := by
          rw [allowed_iff, hrest]
          exact and_congr_right fun hone => by rw [tokens_of_allowed hone]
      _ ↔ PaysFor b.rate (b.refill now).tokens now (now :: later) ∧
            Conforms b.rate b.burst later := by
          rw [paysFor_cons, and_assoc]
      _ ↔ PaysFor b.rate b.tokens b.updated (now :: later) ∧
            Conforms b.rate b.burst (now :: later) := by
          rw [hfound, paysFor_min, ← paysFor_wait, conforms_cons, and_assoc]

/-! ## New buckets -/

/-- **A bucket allows every call of a caller exactly if the caller conforms.** Whenever calls are
made of a new bucket at instants in order, each of them is allowed if in every window, from any
call to any later one, there are no more calls than the burst and what the rate gives over the time
between the two; and otherwise some call is denied. -/
theorem allowed_iff_conforms (hrate : 0 ≤ rate) (burst : ℕ) (start : Duration)
    (hsorted : times.Pairwise (· ≤ ·)) :
    ((full rate burst start).run times).length = times.length ∧
    ((∀ call ∈ (full rate burst start).run times, call.1.allowed = true) ↔
      Conforms rate burst times) := by
  refine ⟨length_run _ _, ?_⟩
  cases times with
  | nil => exact ⟨fun _ => nofun, fun _ => nofun⟩
  | cons first later =>
    -- the first call finds the burst whenever the bucket was created, as if that were just now
    have hfirst := (staysFull hrate burst).run_eq start first (first :: later)
    have hsorted' : (first :: first :: later).Pairwise (· ≤ ·) := by
      rw [List.pairwise_cons]
      refine ⟨fun t ht => ?_, hsorted⟩
      rcases List.mem_cons.mp ht with rfl | ht
      · exact le_refl _
      · exact (List.pairwise_cons.mp hsorted).1 t ht
    have hall := forall_allowed_iff (b := full rate burst first) hsorted'
    rw [hfirst, hall]
    -- the windows that begin with the first call are those that the full bucket has to pay for
    exact ⟨And.right, fun h => ⟨(conforms_cons.mp h).1, h⟩⟩

/-- Two calls at once, one two seconds later and one four seconds later conform to a burst of two
and a rate of one call in two seconds, and are all allowed. -/
theorem allowed_iff_conforms_four_calls :
    let times := [0, 0, Duration.ofSeconds 2, Duration.ofSeconds 4]
    (0 : ℚ) ≤ 1 / 2 ∧ times.Pairwise (· ≤ ·) ∧ Conforms (1 / 2) 2 times ∧
    ∀ call ∈ (full (1 / 2 : ℚ) 2 0).run times, call.1.allowed = true := by
  intro times
  have hrate : (0 : ℚ) ≤ 1 / 2 := by norm_num
  have hsorted : times.Pairwise (· ≤ ·) := by decide
  have hconforms : Conforms (1 / 2) 2 times := by
    intro i j _ hj hij
    have hj' : j < 4 := hj
    interval_cases j <;> interval_cases i <;> norm_num [times, Duration.ofSeconds]
  refine ⟨hrate, hsorted, hconforms, ?_⟩
  obtain ⟨-, hall⟩ := allowed_iff_conforms hrate 2 0 hsorted
  exact hall.mpr (by exact_mod_cast hconforms)

/-- A third call at once does not conform, and is denied. -/
example :
    ((full (1 / 2 : ℚ) 2 0).run [0, 0, 0, Duration.ofSeconds 4]).map (·.1.allowed) =
      [true, true, false, true] := by
  decide +kernel

end Gatehouse.TokenBucket
