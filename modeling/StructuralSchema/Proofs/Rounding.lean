import Mathlib.Algebra.Order.Field.Power
import Mathlib.Data.Nat.Cast.Order.Field
import Mathlib.Order.Monotone.Basic
import Mathlib.Tactic.FieldSimp
import Mathlib.Tactic.Linarith
import Mathlib.Tactic.NormNum
import Mathlib.Tactic.Positivity
import Mathlib.Tactic.Ring
import StructuralSchema.Number.Shortest
import StructuralSchema.Proofs.Magnitude

/-!
# Rounding

The rationals that round to a magnitude lie between the points halfway to its neighbours. The
shortest decimal of a magnitude is one of them, since seventeen digits come close enough to any
magnitude, and no rational rounds to two magnitudes.
-/

namespace StructuralSchema.Binary64

/-! ## Neighbouring magnitudes -/

theorem magnitude_of_le_binade {rank : ℕ} (h : rank ≤ binade) :
    magnitude rank = rank * 2 ^ (-1074 : ℤ) := by
  rcases h.lt_or_eq with hlt | rfl
  · simp only [magnitude, significand, exponent, if_pos hlt]
  · rfl

theorem exponent_of_lt_binade {rank : ℕ} (h : rank < binade) : exponent rank = -1074 := by
  rw [exponent, if_pos h]

theorem exponent_mul_binade_add {q k : ℕ} (hq : 1 ≤ q) (hk : k < binade) :
    exponent (q * binade + k) = (q : ℤ) - 1075 := by
  have hge : ¬ q * binade + k < binade := by
    unfold binade
    omega
  have hdiv : (q * binade + k) / binade = q := by
    unfold binade at hk ⊢
    omega
  rw [exponent, if_neg hge, hdiv]

theorem significand_mul_binade_add {q k : ℕ} (hq : 1 ≤ q) (hk : k < binade) :
    significand (q * binade + k) = binade + k := by
  have hge : ¬ q * binade + k < binade := by
    unfold binade
    omega
  have hmod : (q * binade + k) % binade = k := by
    unfold binade at hk ⊢
    omega
  rw [significand, if_neg hge, hmod]

/-- Within a binade magnitudes are evenly spaced, and so is the first one of the next. -/
theorem magnitude_mul_binade_add {q k : ℕ} (hq : 1 ≤ q) (hk : k ≤ binade) :
    magnitude (q * binade + k) = (binade + k : ℕ) * 2 ^ ((q : ℤ) - 1075) := by
  rcases hk.lt_or_eq with hlt | rfl
  · rw [magnitude, significand_mul_binade_add hq hlt, exponent_mul_binade_add hq hlt]
  · have hnext : q * binade + binade = (q + 1) * binade + 0 := by ring
    have hpos : 0 < binade := by decide
    have hpower : ((q + 1 : ℕ) : ℤ) - 1075 = ((q : ℤ) - 1075) + 1 := by
      push_cast
      ring
    rw [hnext, magnitude, significand_mul_binade_add (by omega) hpos,
      exponent_mul_binade_add (by omega) hpos, hpower, zpow_add_one₀ (by norm_num)]
    push_cast
    ring

theorem exists_eq_mul_binade_add {rank : ℕ} (h : binade ≤ rank) :
    ∃ q k, 1 ≤ q ∧ k < binade ∧ rank = q * binade + k := by
  refine ⟨rank / binade, rank % binade, ?_, Nat.mod_lt _ (by decide), ?_⟩
  · exact Nat.div_pos h (by decide)
  · exact (Nat.div_add_mod' rank binade).symm

theorem magnitude_succ (rank : ℕ) :
    magnitude (rank + 1) = magnitude rank + 2 ^ exponent rank := by
  by_cases h : rank < binade
  · rw [magnitude_of_le_binade h, magnitude_of_le_binade h.le, exponent_of_lt_binade h,
      Nat.cast_succ, add_mul, one_mul]
  · obtain ⟨q, k, hq, hk, rfl⟩ := exists_eq_mul_binade_add (not_lt.mp h)
    rw [add_assoc, magnitude_mul_binade_add hq hk, magnitude_mul_binade_add hq hk.le,
      exponent_mul_binade_add hq hk]
    push_cast
    ring

theorem strictMono_magnitude : StrictMono magnitude := by
  apply strictMono_nat_of_lt_succ
  intro rank
  have hpos : (0 : ℚ) < 2 ^ exponent rank := by positivity
  rw [magnitude_succ]
  linarith

theorem magnitude_pos {rank : ℕ} (h : 0 < rank) : 0 < magnitude rank := by
  have hzero : magnitude 0 = 0 := by simp [magnitude, significand, binade]
  rw [← hzero]
  exact strictMono_magnitude h

theorem significand_mod_two (rank : ℕ) : significand rank % 2 = rank % 2 := by
  unfold significand binade
  split_ifs <;> omega

theorem significand_lt (rank : ℕ) : significand rank < 2 * binade := by
  unfold significand binade
  split_ifs <;> omega

/-! ## What rounds to a magnitude -/

def halfway (rank : ℕ) : ℚ :=
  (magnitude rank + magnitude (rank + 1)) / 2

theorem halfway_eq (rank : ℕ) : halfway rank = magnitude rank + 2 ^ exponent rank / 2 := by
  rw [halfway, magnitude_succ]
  ring

theorem strictMono_halfway : StrictMono halfway := by
  intro r s h
  have hfirst : magnitude r < magnitude s := strictMono_magnitude h
  have hsecond : magnitude (r + 1) < magnitude (s + 1) := strictMono_magnitude (by omega)
  unfold halfway
  linarith

/-- The nearest magnitude has this rank; halfway between two magnitudes, the even rank counts. -/
def RoundsTo (x : ℚ) (rank : ℕ) : Prop :=
  if rank % 2 = 0 then halfway (rank - 1) ≤ x ∧ x ≤ halfway rank
  else halfway (rank - 1) < x ∧ x < halfway rank

theorem RoundsTo.bounds {x : ℚ} {rank : ℕ} (h : RoundsTo x rank) :
    halfway (rank - 1) ≤ x ∧ x ≤ halfway rank := by
  unfold RoundsTo at h
  split_ifs at h
  · exact h
  · exact ⟨h.1.le, h.2.le⟩

theorem roundsTo_of_lt {x : ℚ} {rank : ℕ} (hleast : halfway (rank - 1) < x)
    (hgreatest : x < halfway rank) : RoundsTo x rank := by
  unfold RoundsTo
  split_ifs
  · exact ⟨hleast.le, hgreatest.le⟩
  · exact ⟨hleast, hgreatest⟩

theorem RoundsTo.pos {x : ℚ} {rank : ℕ} (h : RoundsTo x rank) (hrank : 0 < rank) : 0 < x := by
  have hnext : rank - 1 + 1 = rank := by omega
  have hbelow : 0 ≤ magnitude (rank - 1) := by
    unfold magnitude
    positivity
  have hpos := magnitude_pos hrank
  have hleast := h.bounds.1
  rw [halfway, hnext] at hleast
  linarith

theorem not_roundsTo_of_lt {x : ℚ} {r s : ℕ} (h : r < s) (hr : RoundsTo x r) : ¬ RoundsTo x s := by
  intro hs
  have hle : halfway r ≤ halfway (s - 1) := strictMono_halfway.monotone (by omega)
  have hmiddle : halfway r = halfway (s - 1) := by
    linarith [hr.bounds.2, hs.bounds.1]
  -- The only point in common lies between neighbours, and it counts for the even one of them.
  have hnext : r = s - 1 := strictMono_halfway.injective hmiddle
  unfold RoundsTo at hr hs
  split_ifs at hr hs with heven hodd hodd
  · omega
  · linarith [hr.2, hs.1]
  · linarith [hr.2, hs.1]
  · omega

theorem RoundsTo.unique {x : ℚ} {r s : ℕ} (hr : RoundsTo x r) (hs : RoundsTo x s) : r = s := by
  rcases Nat.lt_trichotomy r s with h | h | h
  · exact absurd hs (not_roundsTo_of_lt h hr)
  · exact h
  · exact absurd hr (not_roundsTo_of_lt h hs)

/-! ## Rounding intervals -/

theorem scaleRatio_snd_pos (p : ℤ) : 0 < (scaleRatio 1 1 p).2 := by
  unfold scaleRatio
  cases p with
  | ofNat p => exact Nat.one_pos
  | negSucc p => simp

theorem scaleRatio_one (p : ℤ) :
    ((scaleRatio 1 1 p).1 : ℚ) / (scaleRatio 1 1 p).2 = 2 ^ p := by
  unfold scaleRatio
  cases p with
  | ofNat p => simp
  | negSucc p => simp [zpow_negSucc]

section Interval

variable {rank : ℕ}

theorem roundingInterval_den_pos : 0 < (roundingInterval rank).den :=
  scaleRatio_snd_pos _

theorem quarter_eq (p : ℤ) : (2 : ℚ) ^ (p - 2) = 2 ^ p / 4 := by
  rw [zpow_sub₀ (by norm_num)]
  norm_num

theorem roundingInterval_value :
    ((roundingInterval rank).value : ℚ) / (roundingInterval rank).den = magnitude rank := by
  simp only [roundingInterval]
  push_cast
  rw [mul_div_assoc, scaleRatio_one, quarter_eq, magnitude]
  ring

theorem roundingInterval_greatest :
    ((roundingInterval rank).greatest : ℚ) / (roundingInterval rank).den = halfway rank := by
  simp only [roundingInterval]
  push_cast
  rw [mul_div_assoc, scaleRatio_one, quarter_eq, halfway_eq, magnitude]
  ring

/-- Powers of two begin a binade, and but for the first one the step down from them is only half
as long as the one up. -/
theorem exponent_succ (rank : ℕ) :
    exponent (rank + 1) =
      exponent rank + if significand (rank + 1) = binade ∧ 2 * binade ≤ rank + 1 then 1 else 0 := by
  unfold exponent significand binade
  split_ifs <;> omega

theorem halfway_pred (h : 0 < rank) :
    halfway (rank - 1) = magnitude rank -
      (if significand rank = binade ∧ 2 * binade ≤ rank then 1 else 2 : ℕ) *
        (2 ^ exponent rank / 4) := by
  obtain ⟨before, rfl⟩ := Nat.exists_eq_add_one.mpr h
  rw [Nat.add_sub_cancel, halfway_eq, magnitude_succ, exponent_succ]
  split_ifs
  · rw [zpow_add_one₀ (by norm_num)]
    push_cast
    ring
  · rw [add_zero]
    push_cast
    ring

theorem roundingInterval_least (h : 0 < rank) :
    ((roundingInterval rank).least : ℚ) / (roundingInterval rank).den = halfway (rank - 1) := by
  have hle : (if significand rank = binade ∧ 2 * binade ≤ rank then 1 else 2) ≤
      4 * significand rank := by
    have hpos : 0 < significand rank := by
      unfold significand binade
      split_ifs <;> omega
    split_ifs <;> omega
  rw [halfway_pred h]
  simp only [roundingInterval]
  rw [Nat.cast_mul, Nat.cast_sub hle, mul_div_assoc, scaleRatio_one, quarter_eq, magnitude]
  push_cast
  ring

theorem roundingInterval_closed : (roundingInterval rank).closed = decide (rank % 2 = 0) := by
  simp only [roundingInterval, significand_mod_two]

theorem holds_iff (h : 0 < rank) {num den : ℕ} (hden : 0 < den) :
    (roundingInterval rank).holds num den = true ↔ RoundsTo ((num : ℚ) / den) rank := by
  have hpos : (0 : ℚ) < den := Nat.cast_pos.mpr hden
  have hscale : (0 : ℚ) < (roundingInterval rank).den := Nat.cast_pos.mpr roundingInterval_den_pos
  rw [RoundsTo, ← roundingInterval_least h, ← roundingInterval_greatest,
    RoundingInterval.holds, roundingInterval_closed]
  simp only [decide_eq_true_eq]
  split_ifs
  · rw [Bool.and_eq_true, decide_eq_true_eq, decide_eq_true_eq, div_le_div_iff₀ hscale hpos,
      div_le_div_iff₀ hpos hscale]
    norm_cast
  · rw [Bool.and_eq_true, decide_eq_true_eq, decide_eq_true_eq, div_lt_div_iff₀ hscale hpos,
      div_lt_div_iff₀ hpos hscale]
    norm_cast

/-- Seventeen digits come close enough to a magnitude. -/
theorem roundsTo_of_close (h : 0 < rank) {x unit : ℚ} (hunit : unit * 10 ^ 16 ≤ magnitude rank)
    (hleast : magnitude rank - unit / 2 ≤ x) (hgreatest : x ≤ magnitude rank + unit / 2) :
    RoundsTo x rank := by
  have hulp : (0 : ℚ) < 2 ^ exponent rank := by positivity
  have hdigits : (significand rank : ℚ) < 2 * binade := by exact_mod_cast significand_lt rank
  have hfine : unit < 2 ^ exponent rank := by
    rw [magnitude] at hunit
    unfold binade at hdigits
    push_cast at hdigits
    nlinarith
  apply roundsTo_of_lt
  · rw [halfway_pred h]
    split_ifs with hpower
    · have hfiner : unit < 2 ^ exponent rank / 2 := by
        rw [magnitude, hpower.1] at hunit
        unfold binade at hunit
        push_cast at hunit
        linarith
      push_cast
      linarith
    · push_cast
      linarith
  · rw [halfway_eq]
    linarith

end Interval

/-! ## Decimals -/

def Decimal.value (d : Decimal) : ℚ :=
  d.coefficient * 10 ^ d.power

theorem tenPower_pos (p : ℤ) : 0 < (tenPower p).1 ∧ 0 < (tenPower p).2 := by
  cases p <;> simp [tenPower]

theorem tenPower_eq (p : ℤ) : ((tenPower p).1 : ℚ) / (tenPower p).2 = 10 ^ p := by
  cases p <;> simp [tenPower, zpow_negSucc]

theorem lt_ten_pow_decimalLength (n : ℕ) : n < 10 ^ decimalLength n :=
  (Nat.length_toDigits_le_iff (by decide) Nat.length_toDigits_pos).mp le_rfl

theorem ten_pow_decimalLength_le {n : ℕ} (h : 0 < n) : 10 ^ (decimalLength n - 1) ≤ n := by
  by_cases hlength : decimalLength n = 1
  · rw [hlength]
    exact h
  · have hpos : 0 < decimalLength n := Nat.length_toDigits_pos
    by_contra hlt
    have hle : decimalLength n ≤ decimalLength n - 1 :=
      (Nat.length_toDigits_le_iff (by decide) (by omega)).mpr (not_le.mp hlt)
    omega

theorem ten_zpow_decimalPoint_le {num den : ℕ} (hnum : 0 < num) (hden : 0 < den) :
    (10 : ℚ) ^ (decimalPoint num den - 1) ≤ (num : ℚ) / den := by
  have hpos : (0 : ℚ) < den := Nat.cast_pos.mpr hden
  simp only [decimalPoint]
  split_ifs with hle hexact
  · have hquotient : 0 < num / den := Nat.div_pos hle hden
    have hlength : 0 < decimalLength (num / den) := Nat.length_toDigits_pos
    have hpower : (decimalLength (num / den) : ℤ) - 1 =
        ((decimalLength (num / den) - 1 : ℕ) : ℤ) := by
      omega
    calc (10 : ℚ) ^ ((decimalLength (num / den) : ℤ) - 1)
        = ((10 ^ (decimalLength (num / den) - 1) : ℕ) : ℚ) := by
          rw [hpower, zpow_natCast]
          push_cast
          rfl
      _ ≤ ((num / den : ℕ) : ℚ) := Nat.cast_le.mpr (ten_pow_decimalLength_le hquotient)
      _ ≤ (num : ℚ) / den := Nat.cast_div_le
  · have hlength : 0 < decimalLength (den / num) := Nat.length_toDigits_pos
    have hpower : (2 : ℤ) - decimalLength (den / num) - 1 =
        -((decimalLength (den / num) - 1 : ℕ) : ℤ) := by
      omega
    have hcast : (num : ℚ) * 10 ^ (decimalLength (den / num) - 1) = den := by exact_mod_cast hexact
    rw [hpower, zpow_neg, zpow_natCast, inv_eq_one_div, div_le_div_iff₀ (by positivity) hpos]
    linarith
  · have hpower : (1 : ℤ) - decimalLength (den / num) - 1 = -(decimalLength (den / num) : ℤ) := by
      omega
    have hlt : den < 10 ^ decimalLength (den / num) * num :=
      (Nat.div_lt_iff_lt_mul hnum).mp (lt_ten_pow_decimalLength (den / num))
    have hcast : (den : ℚ) < 10 ^ decimalLength (den / num) * num := by exact_mod_cast hlt
    rw [hpower, zpow_neg, zpow_natCast, inv_eq_one_div, div_le_div_iff₀ (by positivity) hpos]
    linarith

section Grid

variable {rank : ℕ} (power : ℤ)

/-- The multiple of a power of ten that a search on its grid starts from. -/
def gridFloor (rank : ℕ) (power : ℤ) : ℕ :=
  (roundingInterval rank).value * (tenPower power).2 /
    ((roundingInterval rank).den * (tenPower power).1)

theorem div_eq_gridFloor :
    (roundingInterval rank).value * (tenPower power).2 /
        ((roundingInterval rank).den * (tenPower power).1) = gridFloor rank power :=
  rfl

theorem gridFloor_bounds :
    (gridFloor rank power : ℚ) * 10 ^ power ≤ magnitude rank ∧
      magnitude rank < (gridFloor rank power + 1 : ℕ) * 10 ^ power := by
  obtain ⟨hunit, hparts⟩ := tenPower_pos power
  have hden : 0 < (roundingInterval rank).den := roundingInterval_den_pos
  have hfloor := Nat.div_mul_le_self ((roundingInterval rank).value * (tenPower power).2)
    ((roundingInterval rank).den * (tenPower power).1)
  have hnext := Nat.lt_mul_div_succ ((roundingInterval rank).value * (tenPower power).2)
    (Nat.mul_pos hden hunit)
  rw [div_eq_gridFloor] at hfloor hnext
  have hdenQ : (0 : ℚ) < (roundingInterval rank).den := Nat.cast_pos.mpr hden
  have hpartsQ : (0 : ℚ) < (tenPower power).2 := Nat.cast_pos.mpr hparts
  rw [← tenPower_eq, ← roundingInterval_value, ← mul_div_assoc, ← mul_div_assoc,
    div_le_div_iff₀ hpartsQ hdenQ, div_lt_div_iff₀ hdenQ hpartsQ]
  constructor
  · norm_cast
    linarith
  · norm_cast
    linarith

theorem holds_grid_iff (h : 0 < rank) (n : ℕ) :
    (roundingInterval rank).holds (n * (tenPower power).1) (tenPower power).2 = true ↔
      RoundsTo (n * 10 ^ power) rank := by
  rw [holds_iff h (tenPower_pos power).2, Nat.cast_mul, mul_div_assoc, tenPower_eq]

/-- The search takes a multiple next to the magnitude, if one rounds to it. -/
theorem onGrid?_cases (power : ℤ) (h : 0 < rank) :
    (∃ n : ℕ, (roundingInterval rank).onGrid? power = some ⟨n, power⟩ ∧
        RoundsTo (n * 10 ^ power) rank) ∨
      (roundingInterval rank).onGrid? power = none ∧
        ¬ RoundsTo (gridFloor rank power * 10 ^ power) rank ∧
        ¬ RoundsTo ((gridFloor rank power + 1 : ℕ) * 10 ^ power) rank := by
  have hlower := holds_grid_iff power h (gridFloor rank power)
  have hupper := holds_grid_iff power h (gridFloor rank power + 1)
  unfold RoundingInterval.onGrid?
  dsimp only
  rw [div_eq_gridFloor, ← hlower, ← hupper]
  generalize (roundingInterval rank).holds (gridFloor rank power * (tenPower power).1)
    (tenPower power).2 = lowerHit at hlower ⊢
  generalize (roundingInterval rank).holds ((gridFloor rank power + 1) * (tenPower power).1)
    (tenPower power).2 = upperHit at hupper ⊢
  match lowerHit, upperHit with
  | false, false => exact .inr ⟨rfl, Bool.false_ne_true, Bool.false_ne_true⟩
  | true, false => exact .inl ⟨gridFloor rank power, rfl, hlower.mp rfl⟩
  | false, true => exact .inl ⟨gridFloor rank power + 1, rfl, hupper.mp rfl⟩
  | true, true =>
      refine .inl ⟨_, rfl, ?_⟩
      split_ifs
      · exact hupper.mp rfl
      · exact hlower.mp rfl

theorem roundsTo_of_onGrid? (h : 0 < rank) {d : Decimal}
    (hd : (roundingInterval rank).onGrid? power = some d) : RoundsTo d.value rank := by
  rcases onGrid?_cases power h with ⟨n, hn, hround⟩ | ⟨hnone, -⟩
  · rw [hn] at hd
    obtain rfl := Option.some.inj hd
    exact hround
  · rw [hnone] at hd
    cases hd

theorem exists_onGrid? (h : 0 < rank) (hfine : 10 ^ power * 10 ^ 16 ≤ magnitude rank) :
    ∃ d, (roundingInterval rank).onGrid? power = some d := by
  obtain ⟨hfloor, hnext⟩ := @gridFloor_bounds rank power
  rcases onGrid?_cases power h with ⟨n, hn, -⟩ | ⟨-, hlower, hupper⟩
  · exact ⟨_, hn⟩
  · -- One of the two multiples next to the magnitude is at most half a step away from it.
    have hstep : ((gridFloor rank power + 1 : ℕ) : ℚ) * 10 ^ power =
        gridFloor rank power * 10 ^ power + 10 ^ power := by
      push_cast
      ring
    rcases le_total (magnitude rank - gridFloor rank power * 10 ^ power) (10 ^ power / 2) with
      hle | hle
    · refine absurd ?_ hlower
      apply roundsTo_of_close h hfine <;> linarith
    · refine absurd ?_ hupper
      apply roundsTo_of_close h hfine <;> linarith

end Grid

/-- The shortest decimal of a magnitude rounds to it. -/
theorem roundsTo_shortest {rank : ℕ} (h : 0 < rank) : RoundsTo (shortest rank).value rank := by
  have hden : 0 < (roundingInterval rank).den := roundingInterval_den_pos
  have hvalue : 0 < (roundingInterval rank).value := by
    have hpos := magnitude_pos h
    rw [← roundingInterval_value] at hpos
    by_contra hzero
    rw [Nat.eq_zero_of_not_pos hzero] at hpos
    simp at hpos
  have hpoint := ten_zpow_decimalPoint_le hvalue hden
  rw [roundingInterval_value] at hpoint
  unfold shortest
  dsimp only
  split
  · rename_i d hfound
    obtain ⟨n, -, hd⟩ := List.exists_of_findSome?_eq_some hfound
    exact roundsTo_of_onGrid? _ h hd
  · rename_i hnone
    have hfine : (10 : ℚ) ^ (decimalPoint (roundingInterval rank).value
        (roundingInterval rank).den - 1 - (16 : ℕ)) * 10 ^ 16 ≤ magnitude rank := by
      rw [zpow_sub₀ (by norm_num), zpow_natCast, div_mul_cancel₀ _ (by positivity)]
      exact hpoint
    obtain ⟨d, hd⟩ := exists_onGrid? _ h hfine
    rw [List.findSome?_eq_none_iff] at hnone
    rw [hnone 16 (by simp)] at hd
    cases hd

end StructuralSchema.Binary64
