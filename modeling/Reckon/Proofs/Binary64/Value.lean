import Mathlib.Algebra.Order.Field.Power
import Mathlib.Algebra.Order.Ring.Rat
import Mathlib.Tactic.Linarith
import Mathlib.Tactic.Positivity
import Mathlib.Tactic.Ring
import Reckon.Proofs.Binary64.Nearest
import Reckon.Proofs.Binary64.Order

/-! Finite doubles as rational numbers. Comparisons are those of the values, and a value that has a
place among the doubles is rounded to itself. -/
namespace Reckon.Binary64

def signed (negative : Bool) (q : ℚ) : ℚ := if negative then -q else q

/-- The exact value of a finite double. -/
def toRat (x : Float) : ℚ := numerator x * (2 : ℚ) ^ exponent x

section signed
variable (negative : Bool) (q : ℚ)

@[simp] theorem abs_signed : |signed negative q| = |q| := by
  cases negative
  · rfl
  · exact abs_neg q

theorem signed_eq_zero_iff : signed negative q = 0 ↔ q = 0 := by
  rw [← abs_eq_zero, abs_signed, abs_eq_zero]

end signed

section toRat
variable {x y : Float}

theorem toRat_eq_signed (x : Float) :
    toRat x = signed (isNegative x) (mantissa x * (2 : ℚ) ^ exponent x) := by
  unfold toRat numerator signed
  split <;> push_cast
  · exact neg_mul ..
  · rfl

theorem abs_toRat (x : Float) : |toRat x| = mantissa x * (2 : ℚ) ^ exponent x := by
  rw [toRat_eq_signed, abs_signed]
  exact abs_of_nonneg (by positivity)

theorem toRat_eq_signed_abs (x : Float) : toRat x = signed (isNegative x) |toRat x| := by
  rw [abs_toRat, ← toRat_eq_signed]

theorem abs_toRat_lt_zpow (x : Float) : |toRat x| < 2 ^ (53 + exponent x) := by
  rw [abs_toRat, zpow_add₀ two_ne_zero]
  exact mul_lt_mul_of_pos_right (by exact_mod_cast mantissa_lt x) (by positivity)

theorem toRat_withSign (h : x.isNaN = false) (negative : Bool) :
    toRat (withSign negative x) = signed negative |toRat x| := by
  rw [toRat_eq_signed, isNegative_withSign h, mantissa_withSign h, exponent_withSign h, abs_toRat]

theorem isFinite_withSign (h : x.isFinite = true) (negative : Bool) :
    (withSign negative x).isFinite = true := by
  rw [isFinite_iff, biasedExponent_withSign (isNaN_eq_false h)]
  exact isFinite_iff.mp h

theorem isFinite_neg (h : x.isFinite = true) : (-x).isFinite = true := by
  rw [neg_eq_withSign (isNaN_eq_false h)]
  exact isFinite_withSign h _

theorem toRat_neg (h : x.isNaN = false) : toRat (-x) = -toRat x := by
  rw [neg_eq_withSign h, toRat_withSign h]
  conv_rhs => rw [toRat_eq_signed_abs x]
  unfold signed
  cases isNegative x
  · rfl
  · exact (neg_neg _).symm

theorem toRat_eq_zero_iff : toRat x = 0 ↔ mantissa x = 0 := by
  have hpos : (2 : ℚ) ^ exponent x ≠ 0 := by positivity
  rw [toRat_eq_signed, signed_eq_zero_iff, mul_eq_zero, or_iff_left hpos, Nat.cast_eq_zero]

theorem toRat_neg_iff (h : toRat x ≠ 0) : toRat x < 0 ↔ isNegative x = true := by
  have hpos := abs_pos.mpr h
  rw [toRat_eq_signed_abs]
  unfold signed
  cases isNegative x
  · simp only [Bool.false_eq_true, if_false, iff_false, not_lt]
    exact hpos.le
  · simp only [if_true, iff_true]
    exact neg_neg_of_pos hpos

theorem magnitudeBits_eq_zero_iff : magnitudeBits x = 0 ↔ mantissa x = 0 := by
  rw [mantissa_eq_zero_iff, magnitudeBits, toNat_toBits]
  omega

theorem abs_toRat_pos_iff : 0 < |toRat x| ↔ 0 < magnitudeBits x := by
  rw [abs_pos, Ne, toRat_eq_zero_iff, ← magnitudeBits_eq_zero_iff, Nat.pos_iff_ne_zero]

/-- The longer word has the greater magnitude. -/
theorem abs_toRat_lt (h : magnitudeBits x < magnitudeBits y) : |toRat x| < |toRat y| := by
  rw [abs_toRat, abs_toRat]
  rcases parts_lt h with he | ⟨he, hm⟩
  · have hx : (mantissa x : ℚ) < 2 ^ 53 := by exact_mod_cast mantissa_lt x
    have hnormal : biasedExponent y ≠ 0 := by
      intro hzero
      unfold exponent at he
      omega
    have hy : (2 : ℚ) ^ 52 ≤ mantissa y := by
      rw [mantissa, if_neg hnormal]
      push_cast
      linarith [(Nat.cast_nonneg (fraction y) : (0 : ℚ) ≤ fraction y)]
    calc (mantissa x : ℚ) * 2 ^ exponent x
      _ < 2 ^ 53 * 2 ^ exponent x := mul_lt_mul_of_pos_right hx (by positivity)
      _ = 2 ^ 52 * 2 ^ (exponent x + 1) := by rw [zpow_add_one₀ (by norm_num)]; ring
      _ ≤ 2 ^ 52 * 2 ^ exponent y :=
        mul_le_mul_of_nonneg_left (zpow_le_zpow_right₀ (by norm_num) he) (by positivity)
      _ ≤ mantissa y * 2 ^ exponent y := mul_le_mul_of_nonneg_right hy (by positivity)
  · rw [he]
    exact mul_lt_mul_of_pos_right (by exact_mod_cast hm) (by positivity)

theorem abs_toRat_eq (h : magnitudeBits x = magnitudeBits y) : |toRat x| = |toRat y| := by
  obtain ⟨he, hm⟩ := parts_eq h
  rw [abs_toRat, abs_toRat, he, hm]

theorem toRat_eq_of_place (h : place x = place y) : toRat x = toRat y := by
  have hbits : magnitudeBits x = magnitudeBits y := by
    unfold place at h
    split at h <;> split at h <;> omega
  by_cases hsign : isNegative x = isNegative y
  · rw [toRat_eq_signed_abs x, toRat_eq_signed_abs y, abs_toRat_eq hbits, hsign]
  · have hzero : magnitudeBits x = 0 := by
      unfold place at h
      cases hsx : isNegative x <;> cases hsy : isNegative y <;>
        simp only [hsx, hsy, if_true, if_false, Bool.false_eq_true, not_true_eq_false] at h hsign <;>
        omega
    have hx : toRat x = 0 := toRat_eq_zero_iff.mpr (magnitudeBits_eq_zero_iff.mp hzero)
    have hy : toRat y = 0 := toRat_eq_zero_iff.mpr (magnitudeBits_eq_zero_iff.mp (hbits ▸ hzero))
    rw [hx, hy]

theorem toRat_lt_of_place (h : place x < place y) : toRat x < toRat y := by
  have hx := @abs_toRat_pos_iff x
  have hy := @abs_toRat_pos_iff y
  have hlt := @abs_toRat_lt x y
  have hgt := @abs_toRat_lt y x
  rw [toRat_eq_signed_abs x, toRat_eq_signed_abs y]
  unfold place at h
  unfold signed
  cases hsx : isNegative x <;> cases hsy : isNegative y <;>
    simp only [hsx, hsy, if_true, if_false, Bool.false_eq_true] at h ⊢
  · exact hlt (by omega)
  · omega
  · obtain hpos | hpos : 0 < magnitudeBits x ∨ 0 < magnitudeBits y := by omega
    · linarith [hx.mpr hpos, abs_nonneg (toRat y)]
    · linarith [hy.mpr hpos, abs_nonneg (toRat x)]
  · exact neg_lt_neg (hgt (by omega))

theorem toRat_lt_iff_place : toRat x < toRat y ↔ place x < place y := by
  constructor
  · intro h
    obtain hlt | heq | hgt := Int.lt_trichotomy (place x) (place y)
    · exact hlt
    · exact absurd h (toRat_eq_of_place heq).not_lt
    · exact absurd h (toRat_lt_of_place hgt).asymm
  · exact toRat_lt_of_place

theorem lt_iff_toRat (hx : x.isFinite = true) (hy : y.isFinite = true) :
    x < y ↔ toRat x < toRat y := by
  rw [lt_iff_place (isNaN_eq_false hx) (isNaN_eq_false hy), toRat_lt_iff_place]

theorem le_iff_toRat (hx : x.isFinite = true) (hy : y.isFinite = true) :
    x ≤ y ↔ toRat x ≤ toRat y := by
  rw [le_iff_place (isNaN_eq_false hx) (isNaN_eq_false hy), ← not_lt, ← not_lt,
    toRat_lt_iff_place]

theorem beq_zero_iff_toRat : (x == 0) = true ↔ toRat x = 0 := by
  rw [beq_zero_iff, toRat_eq_zero_iff]

end toRat

end Reckon.Binary64
