import Reckon.Math.Function
import Reckon.Proofs.Binary64.Integral

/-! Rounding a half up. The difference to the integer below is exact where it is below a half, and
elsewhere it is rounded to a half at least; the integer above is then short enough to be a double. -/
namespace Reckon.Binary64

theorem floor_add_half (q : ℚ) :
    ⌊q + 1 / 2⌋ = if 1 / 2 ≤ Int.fract q then ⌊q⌋ + 1 else ⌊q⌋ := by
  have hq := Int.floor_add_fract q
  have hlow := Int.fract_nonneg q
  have hhigh := Int.fract_lt_one q
  rw [Int.floor_eq_iff]
  split_ifs <;> push_cast <;> constructor <;> linarith

section fract
variable {x : Float}

theorem toRat_of_nonneg (h : 0 ≤ exponent x) :
    toRat x = (numerator x * 2 ^ (exponent x).toNat : Int) := by
  rw [toRat, zpow_of_nonneg h]
  push_cast
  rfl

/-- A difference to the integer below that is below a half. -/
theorem representable_fract (hx : x.isFinite = true) (h : Int.fract (toRat x) < 1 / 2) :
    Representable (Int.fract (toRat x)) := by
  have hexponent : -1074 ≤ exponent x := by
    unfold exponent
    omega
  by_cases hnonneg : 0 ≤ exponent x
  · rw [toRat_of_nonneg hnonneg, Int.fract_intCast]
    exact_mod_cast representable_natCast (Nat.zero_le _)
  by_cases hshort : -53 ≤ exponent x
  · -- the places below the point
    let w := 2 ^ (-exponent x).toNat
    have hw : w ≤ 2 ^ 53 := Nat.pow_le_pow_right (by decide) (by omega)
    have hmod := Int.emod_nonneg (numerator x) (b := w) (by positivity)
    have hlt := Int.emod_lt_of_pos (numerator x) (b := w) (by positivity)
    have hvalue := @representable_of_mantissa (numerator x % w).toNat _ (by omega) hexponent
      (by omega)
    have hcast : (((numerator x % w).toNat : Nat) : ℚ) = (numerator x % w : Int) := by
      rw [← Int.cast_natCast, Int.toNat_of_nonneg hmod]
    rw [hcast, zpow_of_neg (by omega), ← div_eq_mul_inv] at hvalue
    rw [toRat, zpow_of_neg (by omega), ← div_eq_mul_inv, Int.fract_div_intCast_eq_div_intCast_mod]
    exact hvalue
  · have hsmall : |toRat x| < 1 / 2 := by
      refine (abs_toRat_lt_zpow x).trans_le ?_
      calc (2 : ℚ) ^ (53 + exponent x)
        _ ≤ 2 ^ (-1 : ℤ) := zpow_le_zpow_right₀ (by norm_num) (by omega)
        _ = 1 / 2 := by norm_num
    obtain ⟨hlow, hhigh⟩ := abs_lt.mp hsmall
    by_cases hsign : 0 ≤ toRat x
    · rw [Int.fract_eq_self.mpr ⟨hsign, by linarith⟩]
      exact ⟨x, hx, rfl⟩
    · have hfract : Int.fract (toRat x) = toRat x + 1 := by
        rw [Int.fract_eq_iff]
        exact ⟨by linarith, by linarith, -1, by push_cast; ring⟩
      rw [hfract] at h
      linarith

theorem sub_floor (hx : x.isFinite = true) : toRat x - toRat (floor x) = Int.fract (toRat x) := by
  rw [(floor_spec hx).2.2]
  rfl

/-- The rounded difference to the integer below reaches a half if the difference does. -/
theorem half_le_sub_floor_iff (hx : x.isFinite = true) :
    x - floor x ≥ 0.5 ↔ 1 / 2 ≤ Int.fract (toRat x) := by
  have hfloor := (floor_spec hx).1
  have hhalf : (0.5 : Float).isFinite = true := by decide +kernel
  have hvalue : toRat 0.5 = 1 / 2 := by decide +kernel
  by_cases h : 1 / 2 ≤ Int.fract (toRat x)
  · have hpos : Int.fract (toRat x) ≠ 0 := by linarith
    have hsub : x - floor x = nearestRat (Int.fract (toRat x)) := by
      rw [← sub_floor hx] at hpos ⊢
      exact sub_eq_nearestRat hx hfloor hpos
    have hmono := place_nearestRat_mono h
    rw [← hvalue, nearestRat_toRat hhalf (by rw [hvalue]; norm_num)] at hmono
    rw [hsub, ge_iff_le, le_iff_place (isNaN_eq_false hhalf) (isNaN_nearestRat _)]
    exact iff_of_true hmono h
  · have hexact := sub_exact hx hfloor
    rw [sub_floor hx] at hexact
    obtain ⟨hfinite, hsub⟩ := hexact (representable_fract hx (not_le.mp h))
    rw [ge_iff_le, le_iff_toRat hhalf hfinite, hsub, hvalue]

/-- The integer above a number with places below the point. -/
theorem floor_add_one_exact (hx : x.isFinite = true) (h : 1 / 2 ≤ Int.fract (toRat x)) :
    (floor x + 1).isFinite = true ∧ toRat (floor x + 1) = (⌊toRat x⌋ + 1 : Int) := by
  have hvalue : toRat 1 = 1 := by decide +kernel
  have hexponent : exponent x < 0 := by
    by_contra hnonneg
    rw [toRat_of_nonneg (not_lt.mp hnonneg), Int.fract_intCast] at h
    norm_num at h
  have hsmall : |toRat x| < 2 ^ 52 := by
    refine (abs_toRat_lt_zpow x).trans_le ?_
    calc (2 : ℚ) ^ (53 + exponent x)
      _ ≤ 2 ^ (52 : ℤ) := zpow_le_zpow_right₀ (by norm_num) (by omega)
      _ = 2 ^ 52 := by norm_num
  obtain ⟨hlow, hhigh⟩ := abs_lt.mp hsmall
  have hfloor : ⌊toRat x⌋ < 2 ^ 52 := Int.floor_lt.mpr (by exact_mod_cast hhigh)
  have hfloor' : -2 ^ 52 ≤ ⌊toRat x⌋ := Int.le_floor.mpr (by exact_mod_cast hlow.le)
  have hshort : Representable (⌊toRat x⌋ + 1 : Int) := by
    apply representable_intCast
    rw [abs_le]
    omega
  obtain ⟨hfinite, -, hfloorValue⟩ := floor_spec hx
  have hexact := @add_exact (floor x) 1 hfinite (by decide +kernel)
  rw [hfloorValue, hvalue, ← Int.cast_one, ← Int.cast_add] at hexact
  exact hexact hshort

theorem rounded_spec (hx : x.isFinite = true) :
    (if x - floor x ≥ 0.5 then floor x + 1 else floor x).isFinite = true ∧
      toRat (if x - floor x ≥ 0.5 then floor x + 1 else floor x) = ⌊toRat x + 1 / 2⌋ := by
  have hhalf := half_le_sub_floor_iff hx
  rw [floor_add_half]
  by_cases h : 1 / 2 ≤ Int.fract (toRat x)
  · rw [if_pos (hhalf.mpr h), if_pos h]
    exact floor_add_one_exact hx h
  · obtain ⟨hfinite, -, hvalue⟩ := floor_spec hx
    rw [if_neg (mt hhalf.mp h), if_neg h]
    exact ⟨hfinite, hvalue⟩

/-- The nearest integer, the greater one at a midpoint; a zero has the sign of the argument. -/
theorem roundHalfUp_spec (hx : x.isFinite = true) :
    (roundHalfUp x).isFinite = true ∧ toRat (roundHalfUp x) = ⌊toRat x + 1 / 2⌋ ∧
      (⌊toRat x + 1 / 2⌋ = 0 → isNegative (roundHalfUp x) = isNegative x) := by
  by_cases hzero : toRat x = 0
  · have hsame : roundHalfUp x = x := by
      rw [roundHalfUp, if_pos (by rw [beq_zero_iff_toRat.mpr hzero, Bool.or_true])]
    have hfloor : ⌊(0 : ℚ) + 1 / 2⌋ = 0 := by norm_num
    rw [hsame, hzero, hfloor]
    exact ⟨hx, Int.cast_zero.symm, fun _ => rfl⟩
  obtain ⟨hfinite, hvalue⟩ := rounded_spec hx
  have hnonzero : (!x.isFinite || x == 0) = false := by
    rw [hx, Bool.not_true, Bool.false_or, Bool.eq_false_iff, Ne, beq_zero_iff_toRat]
    exact hzero
  have hneg : x < 0 ↔ toRat x < 0 := by
    have hvalue : toRat 0 = 0 := by decide +kernel
    rw [lt_iff_toRat hx (by decide +kernel), hvalue]
  have hzeroBelow {r : Float} : (r == 0 && x < 0) = true ↔ toRat r = 0 ∧ toRat x < 0 := by
    rw [Bool.and_eq_true, beq_zero_iff_toRat, decide_eq_true_iff, hneg]
  unfold roundHalfUp
  rw [hnonzero, if_neg Bool.false_ne_true]
  dsimp only
  by_cases hsign : ⌊toRat x + 1 / 2⌋ = 0 ∧ toRat x < 0
  · rw [if_pos (hzeroBelow.mpr ⟨by rw [hvalue, hsign.1, Int.cast_zero], hsign.2⟩), hsign.1,
      (toRat_neg_iff hzero).mp hsign.2]
    decide +kernel
  · rw [if_neg fun h => hsign ⟨by exact_mod_cast hvalue.symm.trans (hzeroBelow.mp h).1,
      (hzeroBelow.mp h).2⟩]
    refine ⟨hfinite, hvalue, fun hfloor => ?_⟩
    -- the number is between zero and a half, and is brought down to the zero of its sign
    have hpos : 0 ≤ toRat x := not_lt.mp fun h => hsign ⟨hfloor, h⟩
    have hhigh := (Int.floor_eq_iff.mp hfloor).2
    rw [Int.cast_zero, zero_add] at hhigh
    have hfract : Int.fract (toRat x) = toRat x := Int.fract_eq_self.mpr ⟨hpos, by linarith⟩
    have hbelow : ¬ x - floor x ≥ 0.5 := by
      rw [half_le_sub_floor_iff hx, hfract]
      linarith
    rw [if_neg hbelow]
    exact (floor_spec hx).2.1

end fract

end Reckon.Binary64

namespace Reckon.Math.Function
open Binary64

/-- A finite argument is rounded to the integer below its sum with a half, where the sum is that of
the exact values. A zero has the sign of the argument, and what is not finite stays as it is. -/
theorem apply_round (x : Float) :
    (x.isFinite = false → round.apply [x] = x) ∧
    (x.isFinite = true → (round.apply [x]).isFinite = true ∧
      toRat (round.apply [x]) = ⌊toRat x + 1 / 2⌋ ∧
      (⌊toRat x + 1 / 2⌋ = 0 → isNegative (round.apply [x]) = isNegative x)) := by
  constructor
  · intro hx
    show roundHalfUp x = x
    rw [roundHalfUp, hx, Bool.not_false, Bool.true_or, if_pos rfl]
  · exact roundHalfUp_spec

theorem apply_round_below_half : round.apply [nan] = nan ∧
    toRat (round.apply [0.49999999999999994]) = 0 ∧ isNegative (round.apply [-0.5]) = true := by
  have hbelow := (apply_round 0.49999999999999994).2 (by decide +kernel)
  have hminus := (apply_round (-0.5)).2 (by decide +kernel)
  have hfloor : ⌊toRat 0.49999999999999994 + 1 / 2⌋ = 0 := by decide +kernel
  constructor
  · exact (apply_round nan).1 (by decide +kernel)
  · rw [hbelow.2.1, hfloor, hminus.2.2 (by decide +kernel)]
    decide +kernel

end Reckon.Math.Function
