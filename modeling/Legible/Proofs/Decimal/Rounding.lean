import Mathlib.Algebra.Order.Field.Power
import Mathlib.Tactic.GCongr
import Mathlib.Tactic.Linarith
import Mathlib.Tactic.NormNum
import Mathlib.Tactic.Ring
import Legible.Decimal.Binary64

/-!
Which decimals no double is near to: those from half a step above the largest double on.

A ratio is rounded after it is scaled by a power of two, so that its whole part has as many bits as
a significand. The scaled ratio is then compared with the least significand of full length, with the
first number too long for one, and with the point from which on it rounds to that number.
-/

set_option autoImplicit false

namespace Legible.Decimal

theorem zpow_eq_div (base : ℚ) (exponent : ℤ) :
    base ^ exponent = base ^ exponent.toNat / base ^ (-exponent).toNat := by
  rcases Int.le_total 0 exponent with positive | negative
  · have none : (-exponent).toNat = 0 := by omega
    rw [none, pow_zero, div_one, ← zpow_natCast, Int.toNat_of_nonneg positive]
  · have none : exponent.toNat = 0 := by omega
    rw [none, pow_zero, one_div, ← zpow_natCast, Int.toNat_of_nonneg (by omega), ← zpow_neg,
      neg_neg]

theorem length_toDigits_bounds {n : Nat} (nonzero : n ≠ 0) :
    10 ^ ((Nat.toDigits 10 n).length - 1) ≤ n ∧ n < 10 ^ (Nat.toDigits 10 n).length := by
  have positive : 0 < (Nat.toDigits 10 n).length := Nat.length_toDigits_pos
  refine ⟨?_, (Nat.length_toDigits_le_iff (by decide) positive).1 (Nat.le_refl _)⟩
  rcases Nat.eq_zero_or_pos ((Nat.toDigits 10 n).length - 1) with one | more
  · rw [one]
    exact Nat.pos_of_ne_zero nonzero
  · refine Nat.le_of_not_lt fun short => ?_
    have := (Nat.length_toDigits_le_iff (by decide) more).2 short
    omega

namespace Binary64

section
variable {numerator denominator bound : Nat} (positive : 0 < denominator)
include positive

theorem le_divideToEven (reaches : bound * denominator ≤ numerator) :
    bound ≤ divideToEven numerator denominator := by
  have := (Nat.le_div_iff_mul_le positive).2 reaches
  simp only [divideToEven]
  split <;> omega

theorem divideToEven_le (below : numerator < bound * denominator) :
    divideToEven numerator denominator ≤ bound := by
  have := (Nat.div_lt_iff_lt_mul positive).2 below
  simp only [divideToEven]
  split <;> omega

/-- A quotient below an even number rounds to it if it is within one half, both ends included. -/
theorem divideToEven_eq_iff (even : bound % 2 = 0) (below : numerator < bound * denominator) :
    divideToEven numerator denominator = bound ↔
      2 * bound * denominator ≤ 2 * numerator + denominator := by
  have floorLt := (Nat.div_lt_iff_lt_mul positive).2 below
  have parts := Nat.div_add_mod numerator denominator
  have small := Nat.mod_lt numerator positive
  simp only [divideToEven]
  generalize numerator / denominator = floor at *
  generalize numerator % denominator = rest at *
  obtain ⟨gap, rfl⟩ : ∃ gap, bound = floor + 1 + gap := ⟨bound - (floor + 1), by omega⟩
  rcases Nat.eq_zero_or_pos gap with rfl | wide
  · -- The number is the next one, so the number rounded down is odd.
    have step : 2 * (floor + 1 + 0) * denominator =
        2 * (denominator * floor) + 2 * denominator := by ring
    split <;> omega
  · have step : 2 * (floor + 1 + gap) * denominator =
        2 * (denominator * floor) + 2 * denominator + 2 * gap * denominator := by ring
    have far : denominator ≤ gap * denominator := Nat.le_mul_of_pos_left _ wide
    have twice : 2 * gap * denominator = 2 * (gap * denominator) := by ring
    split <;> omega

end

/-- Half a step above the largest double. -/
def overflow : ℚ :=
  (2 ^ 53 - 1 / 2) * 2 ^ (971 : ℤ)

theorem halfway_le_overflow {exponent : ℤ} (bounded : exponent ≤ 971) :
    (2 ^ 53 - 1 / 2) * 2 ^ exponent ≤ overflow :=
  mul_le_mul_of_nonneg_left (zpow_le_zpow_right₀ one_le_two bounded) (by norm_num)

theorem overflow_le_halfway {exponent : ℤ} (bounded : 971 ≤ exponent) :
    overflow ≤ (2 ^ 53 - 1 / 2) * 2 ^ exponent :=
  mul_le_mul_of_nonneg_left (zpow_le_zpow_right₀ one_le_two bounded) (by norm_num)

section
variable {numerator denominator : Nat}

/-- Comparing the scaled parts of a ratio is comparing the ratio with a multiple of the scale. -/
theorem scaled_le_iff (positive : 0 < denominator) (exponent : ℤ) (bound : ℚ) :
    bound * (denominator * powerOfTwo exponent.toNat : Nat) ≤
        (numerator * powerOfTwo (-exponent).toNat : Nat) ↔
      bound * 2 ^ exponent ≤ (numerator : ℚ) / denominator := by
  have denominatorPos : (0 : ℚ) < denominator := by exact_mod_cast positive
  have scale : (powerOfTwo exponent.toNat : ℚ) =
      2 ^ exponent * (powerOfTwo (-exponent).toNat : ℚ) := by
    have := zpow_eq_div 2 exponent
    simp only [powerOfTwo, Nat.pow_eq, Nat.cast_pow, Nat.cast_ofNat] at this ⊢
    rw [this, div_mul_cancel₀ _ (pow_ne_zero _ two_ne_zero)]
  have downPos : (0 : ℚ) < powerOfTwo (-exponent).toNat := by
    exact_mod_cast powerOfTwo_pos _
  rw [le_div_iff₀ denominatorPos]
  push_cast
  rw [scale]
  calc
    _ ↔ bound * 2 ^ exponent * denominator * (powerOfTwo (-exponent).toNat : ℚ) ≤
        numerator * (powerOfTwo (-exponent).toNat : ℚ) := by ring_nf
    _ ↔ _ := mul_le_mul_iff_left₀ downPos

theorem overfills_iff (positive : 0 < denominator) (exponent : ℤ) :
    overfills numerator denominator exponent ↔
      2 ^ 53 * 2 ^ exponent ≤ (numerator : ℚ) / denominator := by
  rw [← scaled_le_iff positive, overfills, decide_eq_true_eq, Nat.mul_comm]
  norm_cast

theorem log2_bounds {n : Nat} (nonzero : n ≠ 0) :
    (2 : ℚ) ^ (Nat.log2 n : ℤ) ≤ n ∧ (n : ℚ) < 2 ^ (Nat.log2 n + 1 : ℤ) := by
  refine ⟨?_, ?_⟩
  · exact_mod_cast Nat.log2_self_le nonzero
  · exact_mod_cast Nat.lt_log2_self

section
variable (nonzero : 0 < numerator) (positive : 0 < denominator)
include nonzero positive

/-- The lengths of its parts give the size of a ratio up to one bit. -/
theorem ratio_bounds {least : ℤ}
    (sizes : (Nat.log2 numerator - Nat.log2 denominator - 53 : ℤ) = least) :
    2 ^ 52 * 2 ^ least ≤ (numerator : ℚ) / denominator ∧
      (numerator : ℚ) / denominator < 2 ^ 53 * 2 ^ (least + 1) := by
  obtain ⟨numeratorGe, numeratorLt⟩ := log2_bounds nonzero.ne'
  obtain ⟨denominatorGe, denominatorLt⟩ := log2_bounds positive.ne'
  have denominatorPos : (0 : ℚ) < denominator := by exact_mod_cast positive
  rw [le_div_iff₀ denominatorPos, div_lt_iff₀ denominatorPos]
  refine ⟨?_, ?_⟩
  · calc
      (2 : ℚ) ^ 52 * 2 ^ least * denominator
      _ ≤ 2 ^ 52 * 2 ^ least * 2 ^ (Nat.log2 denominator + 1 : ℤ) := by gcongr
      _ = 2 ^ (Nat.log2 numerator : ℤ) := by
        rw [← zpow_natCast, ← zpow_add₀ two_ne_zero, ← zpow_add₀ two_ne_zero]
        congr 1
        push_cast
        omega
      _ ≤ numerator := numeratorGe
  · calc
      (numerator : ℚ)
      _ < 2 ^ (Nat.log2 numerator + 1 : ℤ) := numeratorLt
      _ = 2 ^ 53 * 2 ^ (least + 1) * 2 ^ (Nat.log2 denominator : ℤ) := by
        rw [← zpow_natCast, ← zpow_add₀ two_ne_zero, ← zpow_add₀ two_ne_zero]
        congr 1
        push_cast
        omega
      _ ≤ _ := by gcongr

/-- The power of two by which a ratio has as many bits as a significand. -/
def fitting (numerator denominator : Nat) : ℤ :=
  let least : ℤ := Nat.log2 numerator - Nat.log2 denominator - 53
  if overfills numerator denominator least then least + 1 else least

theorem fitting_bounds :
    2 ^ 52 * 2 ^ fitting numerator denominator ≤ (numerator : ℚ) / denominator ∧
      (numerator : ℚ) / denominator < 2 ^ 53 * 2 ^ fitting numerator denominator := by
  generalize sizes : (Nat.log2 numerator - Nat.log2 denominator - 53 : ℤ) = least
  obtain ⟨lower, upper⟩ := ratio_bounds nonzero positive sizes
  unfold fitting
  rw [sizes]
  simp only
  split
  next full =>
    rw [overfills_iff positive] at full
    refine ⟨?_, upper⟩
    rw [zpow_add_one₀ two_ne_zero]
    linarith
  next short =>
    rw [overfills_iff positive, not_le] at short
    exact ⟨lower, short⟩

def scale (numerator denominator : Nat) : ℤ :=
  max (fitting numerator denominator) (-1074)

/-- Only at the least exponent a significand may have fewer bits. -/
theorem scale_bounds :
    (numerator : ℚ) / denominator < 2 ^ 53 * 2 ^ scale numerator denominator ∧
      (scale numerator denominator ≠ -1074 →
        2 ^ 52 * 2 ^ scale numerator denominator ≤ (numerator : ℚ) / denominator) := by
  obtain ⟨lower, upper⟩ := fitting_bounds nonzero positive
  refine ⟨upper.trans_le ?_, fun higher => ?_⟩
  · gcongr
    · exact one_le_two
    · exact le_max_left _ _
  · have same : scale numerator denominator = fitting numerator denominator := by
      unfold scale at higher ⊢
      omega
    rwa [same]

end

theorem ofRatio?_eq (negative : Bool) (numerator denominator : Nat) :
    ofRatio? negative numerator denominator =
      if scaledDown numerator denominator (scale numerator denominator) = 0x20000000000000 then
        ofParts? negative 0x10000000000000 (scale numerator denominator + 1)
      else
        ofParts? negative (scaledDown numerator denominator (scale numerator denominator))
          (scale numerator denominator) := rfl

section
variable (positive : 0 < denominator) {exponent : ℤ}
include positive

theorem le_scaledDown (lower : 2 ^ 52 * 2 ^ exponent ≤ (numerator : ℚ) / denominator) :
    0x10000000000000 ≤ scaledDown numerator denominator exponent := by
  refine le_divideToEven (Nat.mul_pos positive (powerOfTwo_pos _)) ?_
  exact_mod_cast (scaled_le_iff positive exponent (2 ^ 52)).2 lower

theorem scaled_lt (upper : (numerator : ℚ) / denominator < 2 ^ 53 * 2 ^ exponent) :
    numerator * powerOfTwo (-exponent).toNat <
      0x20000000000000 * (denominator * powerOfTwo exponent.toNat) := by
  rw [← not_le, ← scaled_le_iff positive, not_le] at upper
  exact_mod_cast upper

theorem scaledDown_le (upper : (numerator : ℚ) / denominator < 2 ^ 53 * 2 ^ exponent) :
    scaledDown numerator denominator exponent ≤ 0x20000000000000 :=
  divideToEven_le (Nat.mul_pos positive (powerOfTwo_pos _)) (scaled_lt positive upper)

/-- Rounding carries into one bit more from half a step below it on. -/
theorem scaledDown_eq_iff (upper : (numerator : ℚ) / denominator < 2 ^ 53 * 2 ^ exponent) :
    scaledDown numerator denominator exponent = 0x20000000000000 ↔
      (2 ^ 53 - 1 / 2) * 2 ^ exponent ≤ (numerator : ℚ) / denominator := by
  rw [← scaled_le_iff positive, scaledDown,
    divideToEven_eq_iff (Nat.mul_pos positive (powerOfTwo_pos _)) rfl (scaled_lt positive upper)]
  rw [← Nat.cast_le (α := ℚ)]
  push_cast
  constructor <;> intro bound <;> linarith

end

theorem ofParts?_eq_none_iff {negative : Bool} {significand : Nat} {exponent : ℤ}
    (fits : significand < 0x20000000000000) (least : -1074 ≤ exponent)
    (canonical : significand < 0x10000000000000 → exponent = -1074) :
    ofParts? negative significand exponent = none ↔ 971 < exponent := by
  unfold ofParts?
  split <;> simp_all

/-- A ratio is near to no double if it lies at least half a step above the largest one. -/
theorem ofRatio?_eq_none_iff (nonzero : 0 < numerator) (positive : 0 < denominator)
    (negative : Bool) :
    ofRatio? negative numerator denominator = none ↔
      overflow ≤ (numerator : ℚ) / denominator := by
  obtain ⟨below, full⟩ := scale_bounds nonzero positive
  have least : -1074 ≤ scale numerator denominator := le_max_right _ _
  rw [ofRatio?_eq]
  generalize scale numerator denominator = exponent at *
  have carries := scaledDown_eq_iff positive below
  have unit : (0 : ℚ) < 2 ^ exponent := zpow_pos two_pos exponent
  split
  next carry =>
    rw [ofParts?_eq_none_iff (by decide) (by omega) (fun short => absurd short (by decide))]
    have reached := carries.1 carry
    refine ⟨fun above => ?_, fun above => ?_⟩
    · exact (overflow_le_halfway (by omega)).trans reached
    · by_contra small
      have top := halfway_le_overflow (show exponent + 1 ≤ 971 by omega)
      rw [zpow_add_one₀ two_ne_zero] at top
      linarith
  next kept =>
    have missed := lt_of_not_ge (mt carries.2 kept)
    rw [ofParts?_eq_none_iff (lt_of_le_of_ne (scaledDown_le positive below) kept) least
      fun short => by_contra fun higher => absurd (le_scaledDown positive (full higher)) (by omega)]
    refine ⟨fun above => ?_, fun above => ?_⟩
    · have top := overflow_le_halfway (show 971 ≤ exponent - 1 by omega)
      rw [zpow_sub_one₀ two_ne_zero] at top
      linarith [full (by omega)]
    · by_contra small
      exact absurd ((halfway_le_overflow (by omega)).trans above) (not_le.2 missed)

end

theorem overflow_le_power : overflow ≤ 10 ^ (310 : ℤ) := by
  have whole : (2 : ℚ) ^ 53 * 2 ^ (971 : ℤ) ≤ 10 ^ (310 : ℤ) := by
    have powers : 2 ^ 53 * 2 ^ 971 ≤ 10 ^ 310 := by decide +kernel
    exact_mod_cast powers
  refine le_trans ?_ whole
  exact mul_le_mul_of_nonneg_right (by norm_num) (zpow_nonneg zero_le_two _)

theorem one_lt_overflow : 1 < overflow := by
  have unit : (1 : ℚ) ≤ 2 ^ (971 : ℤ) := one_le_zpow₀ one_le_two (by decide)
  calc
    (1 : ℚ)
    _ < (2 ^ 53 - 1 / 2) * 1 := by norm_num
    _ ≤ overflow := mul_le_mul_of_nonneg_left unit (by norm_num)

/-- A decimal with a digit other than zero lies between the powers of ten at its first digit. -/
theorem decimal_bounds {significand : Nat} (nonzero : significand ≠ 0) {exponent magnitude : ℤ}
    (first : (Nat.toDigits 10 significand).length + exponent = magnitude) :
    (10 : ℚ) ^ (magnitude - 1) ≤ significand * 10 ^ exponent ∧
      (significand : ℚ) * 10 ^ exponent < 10 ^ magnitude := by
  obtain ⟨lower, upper⟩ := length_toDigits_bounds nonzero
  have positive : 0 < (Nat.toDigits 10 significand).length := Nat.length_toDigits_pos
  have unit : (0 : ℚ) < 10 ^ exponent := zpow_pos (by norm_num) exponent
  generalize (Nat.toDigits 10 significand).length = length at *
  have split : ∀ count : ℕ,
      (10 : ℚ) ^ ((count : ℤ) + exponent) = (10 ^ count : ℕ) * 10 ^ exponent := by
    intro count
    rw [zpow_add₀ (by norm_num)]
    norm_cast
  have before : magnitude - 1 = ((length - 1 : ℕ) : ℤ) + exponent := by omega
  rw [before, ← first, split, split]
  refine ⟨mul_le_mul_of_nonneg_right ?_ unit.le, mul_lt_mul_of_pos_right ?_ unit⟩
  · exact_mod_cast lower
  · exact_mod_cast upper

/-- A decimal is near to no double if it lies at least half a step above the largest one, whatever
its sign. -/
theorem ofDecimal?_eq_none_iff (negative : Bool) (significand : Nat) (exponent : ℤ) :
    ofDecimal? negative significand exponent = none ↔
      overflow ≤ significand * 10 ^ exponent := by
  simp only [ofDecimal?]
  split
  next zero =>
    simp [zero, (one_lt_overflow.trans' one_pos).not_ge]
  next nonzero =>
    generalize first : ((Nat.toDigits 10 significand).length : ℤ) + exponent = magnitude
    obtain ⟨lower, upper⟩ := decimal_bounds nonzero first
    have power : ∀ {low high : ℤ}, low ≤ high → (10 : ℚ) ^ low ≤ 10 ^ high :=
      zpow_le_zpow_right₀ (by norm_num)
    split
    next large =>
      simp only [true_iff]
      exact overflow_le_power.trans ((power (by omega)).trans lower)
    next =>
      split
      next small =>
        have below : (10 : ℚ) ^ magnitude ≤ 10 ^ (0 : ℤ) := power (by omega)
        rw [zpow_zero] at below
        simp [((upper.trans_le below).trans one_lt_overflow).not_ge]
      next =>
        rw [ofRatio?_eq_none_iff (Nat.mul_pos (Nat.pos_of_ne_zero nonzero) (powerOfTen_pos _))
          (powerOfTen_pos _), zpow_eq_div, ← mul_div_assoc]
        simp [powerOfTen]

end Binary64

end Legible.Decimal
