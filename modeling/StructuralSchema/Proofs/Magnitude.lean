import Mathlib.Algebra.Order.Field.Rat
import Mathlib.Data.Rat.Lemmas
import StructuralSchema.Number.Binary64

/-!
# What floating-point numbers stand for

A finite number stands for a rational one: its significand times a power of two. This
is the value by which a number is whole, and by which it equals an integer.
-/

namespace StructuralSchema.Binary64

def magnitude (rank : ℕ) : ℚ :=
  significand rank * 2 ^ exponent rank

def value? : Binary64 → Option ℚ
  | .finite false rank => some (magnitude rank)
  | .finite true rank => some (-magnitude rank)
  | _ => none

def IsIntegral (x : Binary64) : Prop :=
  ∃ i : ℤ, x.value? = some (i : ℚ)

theorem ratio_snd_ne_zero (rank : ℕ) : (ratio rank).2 ≠ 0 := by
  unfold ratio scaleRatio
  cases exponent rank <;> simp

theorem ratio_eq_magnitude (rank : ℕ) :
    ((ratio rank).1 : ℚ) / (ratio rank).2 = magnitude rank := by
  unfold ratio scaleRatio magnitude
  cases exponent rank with
  | ofNat p => simp
  | negSucc p => simp [zpow_negSucc, div_eq_mul_inv]

theorem dvd_of_magnitude_eq {rank : ℕ} {i : ℤ} (h : magnitude rank = i) :
    (ratio rank).2 ∣ (ratio rank).1 := by
  rw [← Rat.den_div_natCast_eq_one_iff _ _ (ratio_snd_ne_zero rank), ratio_eq_magnitude, h]
  rfl

theorem magnitude_eq_of_dvd {rank : ℕ} (h : (ratio rank).2 ∣ (ratio rank).1) :
    magnitude rank = (((ratio rank).1 / (ratio rank).2 : ℕ) : ℤ) := by
  rw [← ratio_eq_magnitude, Int.cast_natCast, Rat.natCast_div _ _ h]

/-- A number equals an integer exactly if it stands for it. -/
theorem toInt?_eq_some_iff {x : Binary64} {i : ℤ} :
    x.toInt? = some i ↔ x.value? = some (i : ℚ) := by
  cases x with
  | nan => simp [toInt?, value?]
  | infinite negative => simp [toInt?, value?]
  | finite negative rank =>
      by_cases hdvd : (ratio rank).2 ∣ (ratio rank).1
      · have hmod : (ratio rank).1 % (ratio rank).2 = 0 := Nat.mod_eq_zero_of_dvd hdvd
        have hvalue := magnitude_eq_of_dvd hdvd
        cases negative with
        | false => simp [toInt?, hmod, value?, hvalue, signed]
        | true =>
            simp only [toInt?, hmod, if_true, value?, hvalue, signed, Option.some.injEq]
            rw [← Int.cast_neg, Rat.intCast_inj]
      · have hmod : (ratio rank).1 % (ratio rank).2 ≠ 0 :=
          fun h => hdvd (Nat.dvd_of_mod_eq_zero h)
        have hpos : magnitude rank ≠ i := fun h => hdvd (dvd_of_magnitude_eq h)
        have hneg : -magnitude rank ≠ i := by
          intro h
          have hi : magnitude rank = (-i : ℤ) := by rw [Int.cast_neg, ← h, neg_neg]
          exact hdvd (dvd_of_magnitude_eq hi)
        cases negative with
        | false => simp [toInt?, hmod, value?, hpos]
        | true => simp [toInt?, hmod, value?, hneg]

theorem isWhole_iff {x : Binary64} : x.isWhole = true ↔ x.IsIntegral := by
  simp only [isWhole, Option.isSome_iff_exists, toInt?_eq_some_iff, IsIntegral]

end StructuralSchema.Binary64
