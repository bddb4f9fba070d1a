import Mathlib.Algebra.Order.Field.Rat
import Mathlib.Tactic.FieldSimp
import Mathlib.Tactic.Ring
import Gatehouse.Double

/-!
# The exact value of a double

A finite double is a rational number: a fraction of a power of two, by its sign, its exponent and its
fraction bits. `toInt?_eq_some_iff` says that the reader of whole doubles finds the integers that doubles
are exactly, and no others.
-/

namespace Gatehouse.Double

variable {d : Double} {n : ℤ}

/-- The magnitude of a finite double: without exponent bits a part of the least normal power of two,
and otherwise its power of two with the fraction added. -/
def magnitude (d : Double) : ℚ :=
  if d.exponentBits = 0 then d.fractionBits / 2 ^ 52 * 2 ^ (-1022 : ℤ)
  else (1 + d.fractionBits / 2 ^ 52) * 2 ^ ((d.exponentBits : ℤ) - 1023)

/-- The rational number that a finite double is. -/
def value (d : Double) : ℚ := if d.isNegative then -d.magnitude else d.magnitude

/-- A part of a power of two, in units of another one. -/
theorem fraction_mul_zpow (x : ℚ) (e : ℤ) (k : ℕ) :
    x / 2 ^ 52 * 2 ^ (e - k + 52) = x * 2 ^ e / (Nat.pow 2 k : ℕ) := by
  have htwo : (2 : ℚ) ≠ 0 := two_ne_zero
  have hwhole : (2 : ℚ) ^ (52 : ℤ) = 2 ^ 52 := zpow_natCast 2 52
  rw [zpow_add₀ htwo, hwhole, zpow_sub₀ htwo, zpow_natCast, div_mul_eq_mul_div, ← mul_assoc,
    mul_div_cancel_right₀ _ (pow_ne_zero 52 htwo), mul_div_assoc, Nat.pow_eq, Nat.cast_pow,
    Nat.cast_ofNat]

/-- The magnitude is a whole number of times the least positive double. -/
theorem magnitude_eq (d : Double) :
    d.magnitude = (d.significand * Nat.pow 2 d.shift : ℕ) / (Nat.pow 2 1074 : ℕ) := by
  have hpower (e : ℕ) : ((Nat.pow 2 e : ℕ) : ℚ) = 2 ^ (e : ℤ) := by
    rw [zpow_natCast, Nat.pow_eq, Nat.cast_pow, Nat.cast_ofNat]
  generalize hk : 1074 = k
  rw [Nat.cast_mul, hpower d.shift, ← fraction_mul_zpow]
  by_cases h : d.exponentBits = 0
  · have hexponent : (d.shift : ℤ) - k + 52 = -1022 := by
      rw [shift]
      omega
    rw [magnitude, if_pos h, significand, if_pos h, hexponent]
  · have hexponent : (d.shift : ℤ) - k + 52 = d.exponentBits - 1023 := by
      rw [shift]
      omega
    have hwhole : ((d.fractionBits + Nat.pow 2 52 : ℕ) : ℚ) / 2 ^ 52 = 1 + d.fractionBits / 2 ^ 52 := by
      rw [Nat.pow_eq, Nat.cast_add, Nat.cast_pow, Nat.cast_ofNat]
      field_simp
      ring
    rw [magnitude, if_neg h, significand, if_neg h, hexponent, hwhole]

/-- A fraction of two natural numbers is an integer exactly if the division leaves nothing. -/
theorem div_eq_intCast_iff {scaled unit : ℕ} (hunit : 0 < unit) :
    (scaled : ℚ) / unit = n ↔ scaled % unit = 0 ∧ ((scaled / unit : ℕ) : ℤ) = n := by
  have hne : (unit : ℚ) ≠ 0 := Nat.cast_ne_zero.mpr hunit.ne'
  rw [div_eq_iff hne]
  constructor
  · intro h
    have hproduct : (scaled : ℤ) = n * unit := by exact_mod_cast h
    have hdvd : unit ∣ scaled := Int.natCast_dvd_natCast.mp ⟨n, hproduct.trans (mul_comm _ _)⟩
    refine ⟨Nat.mod_eq_zero_of_dvd hdvd, ?_⟩
    rw [Int.natCast_div, hproduct, Int.mul_ediv_cancel _ (Nat.cast_ne_zero.mpr hunit.ne')]
  · rintro ⟨hmod, rfl⟩
    have hproduct := Nat.div_mul_cancel (Nat.dvd_of_mod_eq_zero hmod)
    exact_mod_cast hproduct.symm

/-- A double is read as an integer exactly if it is that integer. -/
theorem toInt?_eq_some_iff : d.toInt? = some n ↔ d.isFinite = true ∧ d.value = n := by
  rw [toInt?, value, magnitude_eq]
  generalize 1074 = k
  have hunit : 0 < Nat.pow 2 k := Nat.pow_pos Nat.two_pos
  generalize Nat.pow 2 k = unit at hunit
  generalize d.significand * Nat.pow 2 d.shift = scaled
  cases d.isFinite with
  | false => simp
  | true =>
    cases d.isNegative with
    | false => simp [div_eq_intCast_iff hunit]
    | true =>
      have hnegative : -((scaled : ℚ) / unit) = n ↔
          scaled % unit = 0 ∧ ((scaled / unit : ℕ) : ℤ) = -n := by
        rw [neg_eq_iff_eq_neg, ← Int.cast_neg, div_eq_intCast_iff hunit]
      simp [hnegative, neg_eq_iff_eq_neg]

end Gatehouse.Double
