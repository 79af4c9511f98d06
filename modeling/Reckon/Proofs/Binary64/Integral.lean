import Mathlib.Algebra.Order.Floor.Ring
import Mathlib.Data.Rat.Floor
import Reckon.Binary64.Integral
import Reckon.Proofs.Binary64.Sum

/-! The integral neighbours of a finite double. They are exact: a double with places below the point
has a whole part of fewer than 53 bits. -/
namespace Reckon.Binary64

theorem ofNat_exact {n : Nat} (h : n ≤ 2 ^ 53) :
    (ofNat n).isFinite = true ∧ toRat (ofNat n) = n := by
  have hvalue : ((n : ℚ) / (1 : Nat)) = n := by rw [Nat.cast_one, div_one]
  have hexact := nearest_exact one_ne_zero (hvalue ▸ representable_natCast h) false
  rwa [hvalue] at hexact

section integral
variable {x : Float}

/-- A magnitude without places below the point. -/
theorem abs_toRat_of_nonneg (h : 0 ≤ exponent x) :
    |toRat x| = (mantissa x * 2 ^ (exponent x).toNat : Nat) := by
  rw [abs_toRat, zpow_of_nonneg h, Nat.cast_mul]

theorem abs_toRat_of_neg (h : exponent x < 0) :
    |toRat x| = mantissa x / (2 ^ (-exponent x).toNat : Nat) := by
  rw [abs_toRat, zpow_of_neg h, div_eq_mul_inv]

/-- Rounding the quotient of two natural numbers down and up. -/
theorem floor_div_ceil_div (m : Nat) {w : Nat} (hw : 0 < w) :
    ⌊(m : ℚ) / w⌋ = (m / w : Nat) ∧
      ⌈(m : ℚ) / w⌉ = (if m % w != 0 then m / w + 1 else m / w : Nat) := by
  have hw' : (0 : ℚ) < w := Nat.cast_pos.mpr hw
  have hdiv : (m : ℚ) = (m / w : Nat) * w + (m % w : Nat) := by
    exact_mod_cast (Nat.div_add_mod' m w).symm
  have hmod : ((m % w : Nat) : ℚ) < w := Nat.cast_lt.mpr (Nat.mod_lt m hw)
  have hmod' : (0 : ℚ) ≤ (m % w : Nat) := Nat.cast_nonneg _
  constructor
  · rw [Int.floor_eq_iff, Int.cast_natCast, le_div_iff₀ hw', div_lt_iff₀ hw']
    constructor <;> linarith
  · rw [Int.ceil_eq_iff, Int.cast_natCast, lt_div_iff₀ hw', div_le_iff₀ hw']
    by_cases hzero : m % w = 0
    · rw [hzero, Nat.cast_zero] at hdiv
      rw [hzero, if_neg (by decide)]
      constructor <;> linarith
    · have hpos : (0 : ℚ) < (m % w : Nat) := Nat.cast_pos.mpr (Nat.pos_of_ne_zero hzero)
      rw [if_pos (bne_iff_ne.mpr hzero), Nat.cast_succ]
      constructor <;> linarith

theorem wholePart_spec (h : exponent x < 0) (away : Bool) :
    ((if (wholePart x).2 && away then (wholePart x).1 + 1 else (wholePart x).1 : Nat) : ℤ) =
      if away then ⌈|toRat x|⌉ else ⌊|toRat x|⌋ := by
  obtain ⟨hfloor, hceil⟩ := floor_div_ceil_div (mantissa x)
    (Nat.pow_pos (n := (-exponent x).toNat) (show 0 < 2 by decide))
  rw [abs_toRat_of_neg h, hfloor, hceil]
  unfold wholePart
  cases away
  · rw [Bool.and_false]
    rfl
  · rw [Bool.and_true]
    rfl

theorem wholePart_lt (h : exponent x < 0) : (wholePart x).1 < 2 ^ 52 := by
  have hm := mantissa_lt x
  have hw : 2 ^ 1 ≤ 2 ^ (-exponent x).toNat := Nat.pow_le_pow_right (by decide) (by omega)
  unfold wholePart
  dsimp only
  rw [Nat.div_lt_iff_lt_mul (by positivity)]
  omega

/-- The magnitude of an integral neighbour is the integer below or above the magnitude. -/
theorem integral_spec (hx : x.isFinite = true) (away : Bool) :
    (integral away x).isFinite = true ∧ isNegative (integral away x) = isNegative x ∧
      |toRat (integral away x)| = ((if away then ⌈|toRat x|⌉ else ⌊|toRat x|⌋ : ℤ) : ℚ) := by
  unfold integral
  by_cases h : 0 ≤ exponent x
  · rw [if_pos h, abs_toRat_of_nonneg h, Int.ceil_natCast, Int.floor_natCast, ite_self]
    exact ⟨hx, rfl, rfl⟩
  · rw [if_neg h, ← wholePart_spec (by omega)]
    have hlt := wholePart_lt (x := x) (by omega)
    obtain ⟨hfinite, hvalue⟩ := @ofNat_exact
      (if (wholePart x).2 && away then (wholePart x).1 + 1 else (wholePart x).1) (by split <;> omega)
    have hnumber := isNaN_eq_false hfinite
    refine ⟨isFinite_withSign hfinite _, isNegative_withSign hnumber _, ?_⟩
    rw [toRat_withSign hnumber, hvalue, abs_signed, abs_abs, Nat.abs_cast]
    rfl

/-- The integer part is towards zero. -/
theorem truncate_spec (hx : x.isFinite = true) :
    (truncate x).isFinite = true ∧ isNegative (truncate x) = isNegative x ∧
      toRat (truncate x) = signed (isNegative x) ⌊|toRat x|⌋ := by
  obtain ⟨hfinite, hsign, hvalue⟩ := integral_spec hx false
  refine ⟨hfinite, hsign, ?_⟩
  rw [toRat_eq_signed_abs]
  exact congrArg₂ signed hsign hvalue

theorem floor_spec (hx : x.isFinite = true) :
    (floor x).isFinite = true ∧ isNegative (floor x) = isNegative x ∧
      toRat (floor x) = ⌊toRat x⌋ := by
  obtain ⟨hfinite, hsign, hvalue⟩ := integral_spec hx (isNegative x)
  refine ⟨hfinite, hsign, ?_⟩
  rw [toRat_eq_signed_abs, toRat_eq_signed_abs x]
  refine (congrArg₂ signed hsign hvalue).trans ?_
  cases isNegative x
  · rfl
  · show -((⌈|toRat x|⌉ : ℤ) : ℚ) = ⌊-|toRat x|⌋
    rw [Int.floor_neg, Int.cast_neg]

end integral

end Reckon.Binary64
