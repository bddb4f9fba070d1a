import Mathlib.Tactic.NormNum
import Gatehouse.Args
import Gatehouse.Proofs.Double
import Gatehouse.Proofs.Except
import Gatehouse.Proofs.Json.Document

/-!
# Natural numbers among arguments

A number is kept as an integer or as a double, and either way it is a rational number exactly. The
reader of natural numbers takes a number for the integer of 64 bits that it is, refuses all others, and
makes one mistake: a double may be `2 ^ 64`, and it is taken for the integer below it
(`natOfNumber?_eq_some_iff`).
-/

namespace Gatehouse

open Json (Value)

/-- The rational number that a number is. -/
def Json.Number.value : Json.Number → ℚ
  | .int n => n
  | .double d => d.value

/-- Whether a value is a number, and which. -/
def Json.Value.Is (v : Value) (q : ℚ) : Prop := ∃ x, v = .number x ∧ x.value = q

theorem Json.Value.Is.unique {v : Value} {p q : ℚ} (hp : v.Is p) (hq : v.Is q) : p = q := by
  obtain ⟨x, rfl, rfl⟩ := hp
  obtain ⟨_, ⟨⟩, rfl⟩ := hq
  rfl

namespace Args

variable {args : Args} {name : String} {v : Value} {x : Json.Number} {n : ℕ}

/-! ## The natural number of a number -/

/-- What a whole number is taken for, up to the limit of words and at it. -/
theorem ite_min_eq_some_iff {m : ℕ} :
    (if m ≤ Nat.pow 2 64 then some (min m (Nat.pow 2 64 - 1)) else none) = some n ↔
      m = n ∧ n < 2 ^ 64 ∨ m = 2 ^ 64 ∧ n + 1 = 2 ^ 64 := by
  rw [Nat.pow_eq]
  split
  · rw [Option.some_inj]
    omega
  · simp
    omega

/-- Which natural number is read of a number. -/
theorem natOfNumber?_eq_some_iff (hx : x.Legal) :
    natOfNumber? x = some n ↔ x.value = n ∧ n < 2 ^ 64 ∨ x.value = 2 ^ 64 ∧ n + 1 = 2 ^ 64 := by
  cases x with
  | int i =>
    have hbound : i < 2 ^ 64 := hx.2
    have hnat : (i : ℚ) = n ↔ i = n := by norm_cast
    have hlimit : (i : ℚ) = 2 ^ 64 ↔ i = 2 ^ 64 := by norm_cast
    rw [natOfNumber?, Int.mem_toNat?, Json.Number.value, hnat, hlimit]
    omega
  | double d =>
    have hd : d.isFinite = true := hx
    have hwhole {m : ℕ} (hvalue : d.value = (m : ℤ)) : (if m ≤ Nat.pow 2 64 then
        some (min m (Nat.pow 2 64 - 1)) else none) = some n ↔
          d.value = n ∧ n < 2 ^ 64 ∨ d.value = 2 ^ 64 ∧ n + 1 = 2 ^ 64 := by
      have hlimit : (m : ℚ) = 2 ^ 64 ↔ m = 2 ^ 64 := by norm_cast
      rw [ite_min_eq_some_iff, hvalue, Int.cast_natCast, Nat.cast_inj, hlimit]
    simp only [natOfNumber?, bind, Option.bind_eq_some_iff, Double.toInt?_eq_some_iff, hd, true_and,
      Int.mem_toNat?, Json.Number.value]
    constructor
    · rintro ⟨_, hvalue, m, rfl, hm⟩
      exact (hwhole hvalue).mp hm
    · intro h
      obtain ⟨m, hm⟩ : ∃ m : ℕ, d.value = (m : ℤ) := by
        rcases h with ⟨hvalue, -⟩ | ⟨hvalue, -⟩
        · exact ⟨n, hvalue⟩
        · exact ⟨2 ^ 64, by rw [hvalue]; norm_cast⟩
      exact ⟨m, hm, m, rfl, (hwhole hm).mpr h⟩

/-! ## The natural number of an argument -/

/-- The natural number of a value, if it is a number that has one. -/
def natOfValue? : Value → Option Nat
  | .number x => natOfNumber? x
  | _ => none

theorem getNat_of_get? (hv : args.get? name = some v) :
    args.getNat name =
      (natOfValue? v).elim (.error (.invalid name "a non-negative integer")) Except.ok := by
  have hrequire : args.require name = .ok v := by rw [require, hv]
  rw [getNat, hrequire, ok_bind]
  cases v with
  | number x =>
    simp only [natOfValue?]
    cases natOfNumber? x <;> rfl
  | _ => rfl

theorem natOfValue?_eq_some_iff (hv : v.Legal) :
    natOfValue? v = some n ↔ v.Is n ∧ n < 2 ^ 64 ∨ v.Is (2 ^ 64) ∧ n + 1 = 2 ^ 64 := by
  cases v with
  | number x =>
    simp only [natOfValue?, natOfNumber?_eq_some_iff hv, Json.Value.Is, Value.number.injEq,
      exists_eq_left']
  | _ => simp [natOfValue?, Json.Value.Is]

/-- Whether what is read of a value is right: the integer of 64 bits that the value is, or else a refusal
under the name of the argument. -/
def ReadRight (name : String) (v : Value) (result : Except BuildError Nat) : Prop :=
  (∀ n, result = .ok n ↔ v.Is n ∧ n < 2 ^ 64) ∧
    ∀ e, result = .error e → e = .invalid name "a non-negative integer"

/-- What is taken for the integer below it is not read right. -/
theorem not_readRight_limit (h : v.Is (2 ^ 64)) : ¬ ReadRight name v (.ok (2 ^ 64 - 1)) := by
  intro hright
  obtain ⟨hbelow, -⟩ := (hright.1 _).mp rfl
  have hsame := h.unique hbelow
  norm_num at hsame

/-- **Numbers are read as they are, but for one.** What is read of an argument that is there is right
exactly if the argument is not `2 ^ 64`, which is not refused but taken for the integer below it. -/
theorem getNat_right_iff (hv : args.get? name = some v) (hlegal : v.Legal) :
    (ReadRight name v (args.getNat name) ↔ ¬ v.Is (2 ^ 64)) ∧
      (v.Is (2 ^ 64) → args.getNat name = .ok (2 ^ 64 - 1)) := by
  have hok (n : ℕ) : args.getNat name = .ok n ↔
      v.Is n ∧ n < 2 ^ 64 ∨ v.Is (2 ^ 64) ∧ n + 1 = 2 ^ 64 := by
    rw [getNat_of_get? hv, ← natOfValue?_eq_some_iff hlegal]
    cases natOfValue? v <;> simp
  have herror (e : BuildError) (h : args.getNat name = .error e) :
      e = .invalid name "a non-negative integer" := by
    rw [getNat_of_get? hv] at h
    cases hn : natOfValue? v with
    | none =>
      rw [hn] at h
      exact (Except.error.inj h).symm
    | some n =>
      rw [hn] at h
      cases h
  have hlimit (h : v.Is (2 ^ 64)) : args.getNat name = .ok (2 ^ 64 - 1) :=
    (hok _).mpr (.inr ⟨h, rfl⟩)
  refine ⟨⟨fun hright h => ?_, fun h => ⟨fun n => ?_, herror⟩⟩, hlimit⟩
  · rw [hlimit h] at hright
    exact not_readRight_limit h hright
  · rw [hok]
    exact ⟨fun hn => hn.resolve_right fun hn => h hn.1, .inl⟩

/-! ## Next to the limit -/

/-- A double as the burst of a limiter. -/
def burstOf (d : Double) : Args := ⟨[("burst", .number (.double d))]⟩

theorem is_of_toInt? {d : Double} {i : ℤ} (h : d.toInt? = some i) :
    (Value.number (.double d)).Legal ∧ (Value.number (.double d)).Is i := by
  obtain ⟨hfinite, hvalue⟩ := Double.toInt?_eq_some_iff.mp h
  exact ⟨hfinite, _, rfl, hvalue⟩

/-- The greatest double below the limit is read as it is. -/
theorem getNat_right_iff_below_limit :
    let d : Double := ⟨0x43EFFFFFFFFFFFFF⟩
    (burstOf d).get? "burst" = some (.number (.double d)) ∧ (Value.number (.double d)).Legal ∧
      (burstOf d).getNat "burst" = .ok 18446744073709549568 := by
  intro d
  have hv : (burstOf d).get? "burst" = some (.number (.double d)) := rfl
  obtain ⟨hlegal, his⟩ := is_of_toInt? (d := d) (i := 18446744073709549568) (by decide +kernel)
  have hne : ¬ (Value.number (.double d)).Is (2 ^ 64) := by
    intro h
    have hsame := his.unique h
    norm_num at hsame
  obtain ⟨hread, -⟩ := (getNat_right_iff hv hlegal).1.mpr hne
  exact ⟨hv, hlegal, (hread _).mpr ⟨his, by norm_num⟩⟩

/-- The limit itself is not refused. -/
theorem getNat_clips_limit :
    let d : Double := ⟨0x43F0000000000000⟩
    (burstOf d).get? "burst" = some (.number (.double d)) ∧ (Value.number (.double d)).Legal ∧
      (Value.number (.double d)).Is (2 ^ 64) ∧ (burstOf d).getNat "burst" = .ok (2 ^ 64 - 1) ∧
      ¬ ReadRight "burst" (.number (.double d)) ((burstOf d).getNat "burst") := by
  intro d
  obtain ⟨hlegal, his⟩ := is_of_toInt? (d := d) (i := 2 ^ 64) (by decide +kernel)
  have hlimit : (Value.number (.double d)).Is (2 ^ 64) := by
    have hcast : ((2 ^ 64 : ℤ) : ℚ) = 2 ^ 64 := by norm_cast
    rwa [hcast] at his
  have hread : (burstOf d).getNat "burst" = .ok (2 ^ 64 - 1) := by
    rw [getNat_of_get? rfl, (natOfValue?_eq_some_iff hlegal).mpr (.inr ⟨hlimit, rfl⟩)]
    rfl
  refine ⟨rfl, hlegal, hlimit, hread, ?_⟩
  rw [hread]
  exact not_readRight_limit hlimit

end Args

end Gatehouse
