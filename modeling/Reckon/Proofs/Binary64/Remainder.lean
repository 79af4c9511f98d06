import Reckon.Binary64.Remainder
import Reckon.Proofs.Binary64.Integral

/-! The remainder of finite doubles is exact: it is a multiple of the last place of one operand that is
not above this operand. -/
namespace Reckon.Binary64

theorem nearestScaled_exact {m : Nat} {e : Int} (h : Representable (m * (2 : ℚ) ^ e))
    (negative : Bool) : (nearestScaled negative m e).isFinite = true ∧
      toRat (nearestScaled negative m e) = signed negative (m * (2 : ℚ) ^ e) := by
  have hvalue : ((m * 2 ^ e.toNat : Nat) : ℚ) / (2 ^ (-e).toNat : Nat) = m * (2 : ℚ) ^ e := by
    rw [zpow_eq_div]
    push_cast
    rw [mul_div_assoc]
  rw [nearestScaled_eq, ← hvalue]
  exact nearest_exact (by positivity) (hvalue ▸ h) negative

section remainder
variable {x y : Float}

private theorem alignedMantissa_eq {e : Int} (h : e ≤ exponent x) :
    |toRat x| = alignedMantissa x e * (2 : ℚ) ^ e := by
  rw [abs_toRat, alignedMantissa, Nat.shiftLeft_eq, zpow_shift h]
  push_cast
  ring

private theorem alignedMantissa_self (x : Float) : alignedMantissa x (exponent x) = mantissa x := by
  rw [alignedMantissa, sub_self]
  rfl

/-- The integer remainder is as short as one of the mantissas. -/
theorem alignedMantissa_mod_lt (hy : 0 < mantissa y) {e : Int}
    (he : e = min (exponent x) (exponent y)) :
    alignedMantissa x e % alignedMantissa y e < 2 ^ 53 := by
  obtain hle | hle := Int.le_total (exponent x) (exponent y)
  · rw [he, Int.min_eq_left hle, alignedMantissa_self]
    exact Nat.lt_of_le_of_lt (Nat.mod_le ..) (mantissa_lt x)
  · rw [he, Int.min_eq_right hle, alignedMantissa_self]
    exact Nat.lt_trans (Nat.mod_lt _ hy) (mantissa_lt y)

theorem remainder_of_finite (hx : x.isFinite = true) (hy : y.isFinite = true)
    (hzero : toRat y ≠ 0) {e : Int} (he : e = min (exponent x) (exponent y)) :
    remainder x y = nearestScaled (isNegative x) (alignedMantissa x e % alignedMantissa y e) e := by
  have hinf {z : Float} (hz : z.isFinite = true) : z.isInf = false := by
    rw [Bool.eq_false_iff, Ne, isInf_iff]
    exact fun h => isFinite_iff.mp hz h.1
  have hyzero : (y == 0) = false := by
    rw [Bool.eq_false_iff, Ne, beq_zero_iff_toRat]
    exact hzero
  unfold remainder
  rw [isNaN_eq_false hx, isNaN_eq_false hy, hinf hx, hinf hy, hyzero, he]
  simp only [Bool.or_self, Bool.false_eq_true, if_false]

/-- The remainder has the sign of the dividend. -/
theorem remainder_spec (hx : x.isFinite = true) (hy : y.isFinite = true) (hzero : toRat y ≠ 0) :
    (remainder x y).isFinite = true ∧ isNegative (remainder x y) = isNegative x ∧
      |toRat (remainder x y)| = |toRat x| - |toRat y| * ⌊|toRat x| / |toRat y|⌋ := by
  let e := min (exponent x) (exponent y)
  let m := alignedMantissa x e
  let n := alignedMantissa y e
  have hxm : |toRat x| = m * (2 : ℚ) ^ e := alignedMantissa_eq (Int.min_le_left ..)
  have hyn : |toRat y| = n * (2 : ℚ) ^ e := alignedMantissa_eq (Int.min_le_right ..)
  have hpow : (2 : ℚ) ^ e ≠ 0 := by positivity
  have hn : 0 < n := by
    apply Nat.pos_of_ne_zero
    intro hn
    rw [hn, Nat.cast_zero, zero_mul, abs_eq_zero] at hyn
    exact hzero hyn
  have hshort := alignedMantissa_mod_lt (Nat.pos_of_ne_zero (mt toRat_eq_zero_iff.mpr hzero))
    (rfl : e = min (exponent x) (exponent y))
  have hxe := exponent_bounds hx
  have hye := exponent_bounds hy
  obtain ⟨hfinite, hvalue⟩ := nearestScaled_exact
    (representable_of_mantissa hshort (e := e) (by omega) (by omega)) (isNegative x)
  have hmod : (m : ℚ) = n * (m / n : Nat) + (m % n : Nat) := by
    exact_mod_cast (Nat.div_add_mod m n).symm
  rw [remainder_of_finite hx hy hzero rfl]
  refine ⟨hfinite, (nearestScaled_isNumber ..).2, ?_⟩
  rw [hvalue, abs_signed, hxm, hyn, mul_div_mul_right _ _ hpow, (floor_div_ceil_div m hn).1,
    Int.cast_natCast, abs_of_nonneg (by positivity)]
  show ((m % n : Nat) : ℚ) * 2 ^ e = _
  rw [hmod]
  ring

end remainder

end Reckon.Binary64
