import Mathlib.Algebra.Order.Field.Power
import Mathlib.Data.Rat.Cast.Order
import Mathlib.Tactic.Positivity
import RecordStore.Double.Basic

/-!
# The number that a double stands for

The number that a finite double stands for is a rational one
(`RecordStore.Double.toRat?`). Reading an integer off the bits of a double, without
any arithmetic but that of naturals, gives this number if it is an integer, and
nothing if it is not (`RecordStore.Double.toInt?_eq_some_iff`): a significand that is
scaled down stands for an integer exactly when the scale divides it.
-/

namespace RecordStore

namespace Double

variable {d : Double}

/-- The number that a double stands for, if it is finite. -/
def toRat? (d : Double) : Option ℚ :=
  if d.isFinite then
    some ((if d.isNegative then -1 else 1) * ((d.significand : ℚ) * 2 ^ d.exponent))
  else none

/-- Dividing without a remainder undoes multiplying. -/
theorem mod_eq_zero_and_div_eq_iff {m place n : ℕ} (positive : 0 < place) :
    m % place = 0 ∧ m / place = n ↔ m = n * place := by
  constructor
  · rintro ⟨hmod, rfl⟩
    exact (Nat.div_mul_cancel (Nat.dvd_of_mod_eq_zero hmod)).symm
  · rintro rfl
    exact ⟨Nat.mul_mod_left n place, Nat.mul_div_cancel n positive⟩

/-- The absolute value of a double is a natural number where one is read off it. -/
theorem toNat?_eq_some_iff {n : ℕ} :
    d.toNat? = some n ↔ d.isFinite = true ∧ (d.significand : ℚ) * 2 ^ d.exponent = n := by
  have hvalue : (d.significand % 2 ^ (-d.exponent).toNat = 0 ∧
      d.significand / 2 ^ (-d.exponent).toNat * 2 ^ d.exponent.toNat = n) ↔
        (d.significand : ℚ) * 2 ^ d.exponent = n := by
    rcases Int.eq_nat_or_neg d.exponent with ⟨k, hk | hk⟩
    · -- scaled up
      rw [hk, Int.toNat_neg_natCast, Int.toNat_natCast, pow_zero, Nat.div_one, zpow_natCast]
      rw [and_iff_right (Nat.mod_one _)]
      norm_cast
    · -- scaled down
      have hpositive : 0 < 2 ^ k := by positivity
      rw [hk, neg_neg, Int.toNat_neg_natCast, Int.toNat_natCast, pow_zero, mul_one,
        mod_eq_zero_and_div_eq_iff hpositive, zpow_neg, zpow_natCast, ← div_eq_mul_inv,
        div_eq_iff (by positivity)]
      norm_cast
  rw [toNat?, ← hvalue]
  by_cases hfinite : d.isFinite = true
  · simp [hfinite]
  · simp [hfinite]

theorem toInt?_eq_map :
    d.toInt? = d.toNat?.map fun n : ℕ => if d.isNegative then -(n : ℤ) else n := by
  rw [toInt?]
  cases d.toNat? <;> rfl

/-- A rational number that is not negative is an integer if it is a natural number. -/
theorem exists_natCast_eq_iff {q : ℚ} (h : 0 ≤ q) {i : ℤ} :
    (∃ m : ℕ, q = m ∧ (m : ℤ) = i) ↔ q = i := by
  constructor
  · rintro ⟨m, rfl, rfl⟩
    norm_cast
  · rintro rfl
    obtain ⟨m, rfl⟩ := Int.eq_ofNat_of_zero_le (Int.cast_nonneg_iff.1 h)
    exact ⟨m, by norm_cast, rfl⟩

/-- **An integer is read off a double exactly when the double stands for it.** -/
theorem toInt?_eq_some_iff {n : ℤ} : d.toInt? = some n ↔ d.toRat? = some (n : ℚ) := by
  have hnonneg : 0 ≤ (d.significand : ℚ) * 2 ^ d.exponent := by positivity
  rw [toInt?_eq_map, toRat?, Option.map_eq_some_iff]
  simp only [toNat?_eq_some_iff]
  by_cases hfinite : d.isFinite = true
  · simp only [hfinite, true_and, if_true, Option.some_inj]
    by_cases hnegative : d.isNegative = true
    · simp only [hnegative, if_true, neg_one_mul, neg_eq_iff_eq_neg]
      exact_mod_cast exists_natCast_eq_iff hnonneg (i := -n)
    · simp only [hnegative, Bool.false_eq_true, if_false, one_mul]
      exact exists_natCast_eq_iff hnonneg
  · simp [hfinite]

end Double

end RecordStore
