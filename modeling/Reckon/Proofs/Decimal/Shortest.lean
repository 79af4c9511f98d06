import Reckon.Decimal.Shortest
import Reckon.Proofs.Binary64.Nearest

/-! The shortest digits of a finite double are read back as its magnitude, and there are not too
many of them. -/
namespace Reckon.Decimal
open Binary64

/-- Digits are read back as a double, and neither their number nor the power of ten is large. -/
structure Renders (reach : Nat) (s : Scaled) (x : Float) : Prop where
  value : s.toFloat = x
  digits : s.digits < 10 ^ 2100
  low : -1100 ≤ s.exponent
  high : s.exponent ≤ reach

namespace Scaled

/-- A zero at the end of the digits may be moved to the exponent. -/
theorem toFloat_shift (q : Nat) (e : Int) :
    (Scaled.mk (q * 10) e).toFloat = (Scaled.mk q (e + 1)).toFloat := by
  unfold toFloat ratio
  dsimp only
  by_cases he : 0 ≤ e
  · have hpow : q * 10 * 10 ^ e.toNat = q * 10 ^ (e + 1).toNat := by
      rw [show (e + 1).toNat = e.toNat + 1 by omega, Nat.pow_succ', Nat.mul_assoc]
    rw [if_pos he, if_pos (by omega), hpow]
  · have hpow : 10 ^ (-e).toNat = 10 ^ (-(e + 1)).toNat * 10 := by
      rw [show (-e).toNat = (-(e + 1)).toNat + 1 by omega, Nat.pow_succ]
    have hpos : 10 ^ (-(e + 1)).toNat ≠ 0 := Nat.ne_of_gt (Nat.pow_pos (by decide))
    rw [if_neg he]
    dsimp only
    rw [hpow, nearest_scale false q hpos (by decide)]
    split
    · next h =>
      have hzero : (e + 1).toNat = 0 := by omega
      have hzero' : (-(e + 1)).toNat = 0 := by omega
      rw [hzero, hzero', Nat.pow_zero, Nat.mul_one]
    · rfl

/-- Trimming keeps the number, adds no digit, and takes the exponent up by at most the fuel. -/
theorem trim_spec (fuel : Nat) (s : Scaled) :
    (s.trim fuel).toFloat = s.toFloat ∧ (s.trim fuel).digits ≤ s.digits ∧
      s.exponent ≤ (s.trim fuel).exponent ∧ (s.trim fuel).exponent ≤ s.exponent + fuel := by
  induction fuel generalizing s with
  | zero => simp [trim]
  | succ fuel ih =>
    rw [trim]
    split
    · next h =>
      have hdigits : s.digits = s.digits / 10 * 10 := by omega
      obtain ⟨hvalue, hle, hlow, hhigh⟩ := ih ⟨s.digits / 10, s.exponent + 1⟩
      dsimp only at hle hlow hhigh
      refine ⟨?_, by omega, by omega, by omega⟩
      rw [hvalue, ← toFloat_shift, ← hdigits]
    · exact ⟨rfl, Nat.le_refl _, Int.le_refl _, by omega⟩

end Scaled

theorem gridFloor_le (n d : Nat) (e : Int) : (gridFloor n d e).1 ≤ n * 10 ^ (-e).toNat := by
  unfold gridFloor
  dsimp only
  refine Nat.le_trans (Nat.div_le_self ..) ?_
  split
  · exact Nat.le_mul_of_pos_right n (Nat.pow_pos (by decide))
  · exact Nat.le_refl _

/-- A hit on a grid is one of the two neighbours there, and is read back. -/
theorem spec_of_onGrid? {tie : Tie} {x : Float} {n d : Nat} {e : Int} {s : Scaled}
    (h : onGrid? tie x n d e = some s) :
    (s.toFloat == x) = true ∧ s.exponent = e ∧ s.digits ≤ n * 10 ^ (-e).toNat + 1 := by
  have hfloor := gridFloor_le n d e
  have hhit {q : Nat} (hq : q ≤ (gridFloor n d e).1 + 1)
      (hx : ((Scaled.mk q e).toFloat == x) = true) (hs : some ⟨q, e⟩ = some s) :
      (s.toFloat == x) = true ∧ s.exponent = e ∧ s.digits ≤ n * 10 ^ (-e).toNat + 1 := by
    cases hs
    exact ⟨hx, rfl, Nat.le_trans hq (Nat.succ_le_succ hfloor)⟩
  have hle := Nat.le_succ (gridFloor n d e).1
  unfold onGrid? at h
  dsimp only at h
  -- either neighbour may be tried first
  split at h <;> dsimp only at h
  · split at h
    · next hlower => exact hhit hle hlower h
    split at h
    · next hupper => exact hhit (Nat.le_refl _) hupper h
    · cases h
  · split at h
    · next hupper => exact hhit (Nat.le_refl _) hupper h
    split at h
    · next hlower => exact hhit hle hlower h
    · cases h

theorem spec_of_search {tie : Tie} {x : Float} {n d : Nat} {top : Int} {fuel places : Nat}
    {s : Scaled} (h : search tie x n d top fuel places = some s) :
    (s.toFloat == x) = true ∧ s.digits ≤ n * 10 ^ (-s.exponent).toNat + 1 ∧
      top - (places + fuel : Nat) ≤ s.exponent ∧ s.exponent < top := by
  induction fuel generalizing places with
  | zero => cases h
  | succ fuel ih =>
    rw [search] at h
    split at h
    · next t ht =>
      cases h
      obtain ⟨hx, he, hdigits⟩ := spec_of_onGrid? ht
      exact ⟨hx, he ▸ hdigits, by omega, by omega⟩
    · obtain ⟨hx, hdigits, hlow, hhigh⟩ := ih h
      exact ⟨hx, hdigits, by omega, hhigh⟩

theorem Renders.trim {reach : Nat} {s : Scaled} {x : Float} (h : Renders reach s x) (fuel : Nat) :
    Renders (reach + fuel) (s.trim fuel) x := by
  obtain ⟨hvalue, hdigits, hlow, hhigh⟩ := s.trim_spec fuel
  exact ⟨hvalue.trans h.value, Nat.lt_of_le_of_lt hdigits h.digits, Int.le_trans h.low hlow,
    by have := h.high; omega⟩

/-- A number with all its digits. -/
theorem toFloat_exactly (n k : Nat) :
    (exactly n (2 ^ k)).toFloat = nearest false n (2 ^ k) := by
  unfold exactly Scaled.toFloat Scaled.ratio
  rw [Nat.log2_two_pow]
  dsimp only
  split
  · next hk =>
    obtain rfl : k = 0 := by omega
    simp
  · have hk : (- -(k : Int)).toNat = k := by omega
    have hpow : 10 ^ k = 2 ^ k * 5 ^ k := by rw [← Nat.mul_pow]
    dsimp only
    rw [hk, hpow]
    exact nearest_scale false n (Nat.ne_of_gt (Nat.pow_pos (by decide))) (Nat.pow_pos (by decide))

theorem magnitude_eq (x : Float) :
    magnitude x = (mantissa x * 2 ^ (exponent x).toNat, 2 ^ (-exponent x).toNat) := by
  unfold magnitude
  dsimp only
  rw [Nat.shiftLeft_eq, Nat.shiftLeft_eq, Nat.one_mul]
  split
  · next he =>
    have hzero : (-exponent x).toNat = 0 := by omega
    rw [hzero, Nat.pow_zero]
  · next he =>
    have hzero : (exponent x).toNat = 0 := by omega
    rw [hzero, Nat.pow_zero, Nat.mul_one]


section finite
variable {x : Float}

/-- The numerator of a magnitude has no more than 1024 bits. -/
theorem numerator_lt (h : x.isFinite = true) :
    mantissa x * 2 ^ (exponent x).toNat < 10 ^ 1024 := by
  have he := exponent_bounds h
  have hm : mantissa x < 2 ^ 53 := mantissa_lt x
  calc mantissa x * 2 ^ (exponent x).toNat
    _ < 2 ^ 53 * 2 ^ (exponent x).toNat := (Nat.mul_lt_mul_right (Nat.pow_pos (by decide))).mpr hm
    _ = 2 ^ (53 + (exponent x).toNat) := by rw [Nat.pow_add]
    _ ≤ 10 ^ (53 + (exponent x).toNat) := Nat.pow_le_pow_left (by decide) _
    _ ≤ 10 ^ 1024 := Nat.pow_le_pow_right (by decide) (by omega)

theorem decimalPlaces_bounds (h : x.isFinite = true) (hm : 0 < mantissa x) :
    -400 ≤ decimalPlaces (magnitude x).1 (magnitude x).2 ∧
      decimalPlaces (magnitude x).1 (magnitude x).2 ≤ 400 := by
  have he := exponent_bounds h
  have hlog : (mantissa x).log2 < 53 := (Nat.log2_lt (Nat.ne_of_gt hm)).mpr (mantissa_lt x)
  unfold decimalPlaces
  rw [magnitude_eq, logRatio_magnitude (Nat.ne_of_gt hm)]
  dsimp only
  repeat' split
  all_goals omega

theorem nearest_fst_magnitude (h : x.isFinite = true) (hm : 0 < mantissa x) (negative : Bool) :
    nearest negative (magnitude x).1 (magnitude x).2 = withSign negative x := by
  rw [magnitude_eq]
  exact nearest_magnitude h hm negative

/-- A numerator may be multiplied by any power of ten that is still needed. -/
theorem mul_lt_of_lt_pow {n b p a : Nat} (hn : n < 10 ^ p) (hb : 0 < b) (hle : b ≤ 10 ^ a)
    (h : p + a < 2100) : n * b + 1 < 10 ^ 2100 :=
  calc n * b + 1
    _ ≤ 10 ^ p * b := (Nat.mul_lt_mul_right hb).mpr hn
    _ ≤ 10 ^ p * 10 ^ a := Nat.mul_le_mul_left _ hle
    _ = 10 ^ (p + a) := (Nat.pow_add ..).symm
    _ < 10 ^ 2100 := Nat.pow_lt_pow_right (by decide) h

theorem renders_search (h : x.isFinite = true) (hm : 0 < mantissa x) {tie : Tie} {s : Scaled}
    (hs : search tie (withSign false x) (magnitude x).1 (magnitude x).2
      (decimalPlaces (magnitude x).1 (magnitude x).2) 17 0 = some s) :
    Renders 400 s (withSign false x) := by
  have hnan := isNaN_eq_false h
  obtain ⟨hvalue, hdigits, hlow, hhigh⟩ := spec_of_search hs
  obtain ⟨hplaces, hplaces'⟩ := decimalPlaces_bounds h hm
  refine ⟨eq_of_beq hvalue ?_ ?_, Nat.lt_of_le_of_lt hdigits ?_, by omega, by omega⟩
  · rw [biasedExponent_withSign hnan]
    exact isFinite_iff.mp h
  · rwa [mantissa_withSign hnan]
  · rw [magnitude_eq]
    exact mul_lt_of_lt_pow (numerator_lt h) (Nat.pow_pos (by decide)) (Nat.le_refl _) (by omega)

theorem renders_exactly (h : x.isFinite = true) (hm : 0 < mantissa x) :
    Renders 400 (exactly (magnitude x).1 (magnitude x).2) (withSign false x) := by
  have he := exponent_bounds h
  have hvalue := nearest_fst_magnitude h hm false
  rw [magnitude_eq] at hvalue ⊢
  refine ⟨(toFloat_exactly ..).trans hvalue, ?_, ?_, ?_⟩
  · rw [exactly, Nat.log2_two_pow]
    exact Nat.lt_of_succ_lt (mul_lt_of_lt_pow (numerator_lt h) (Nat.pow_pos (by decide))
      (Nat.pow_le_pow_left (by decide) _) (by omega))
  · rw [exactly, Nat.log2_two_pow]
    dsimp only
    omega
  · rw [exactly, Nat.log2_two_pow]
    dsimp only
    omega

/-- The shortest digits of a double are digits of its magnitude. -/
theorem renders_shortest (h : x.isFinite = true) (hm : 0 < mantissa x) (tie : Tie) :
    Renders 800 (shortest tie x) (withSign false x) := by
  have habs : Binary64.abs x = withSign false x := by
    rw [Binary64.abs, isNaN_eq_false h]
    rfl
  show Renders 800 (((search tie (Binary64.abs x) (magnitude x).1 (magnitude x).2
    (decimalPlaces (magnitude x).1 (magnitude x).2) 17 0).getD
      (exactly (magnitude x).1 (magnitude x).2)).trim 400) _
  rw [habs]
  refine Renders.trim ?_ 400
  cases hs : search tie (withSign false x) (magnitude x).1 (magnitude x).2
      (decimalPlaces (magnitude x).1 (magnitude x).2) 17 0 with
  | none => exact renders_exactly h hm
  | some s => exact renders_search h hm hs

/-- Digits of what is not zero are not all zeros. -/
theorem Renders.digits_pos {reach : Nat} {s : Scaled} (h : Renders reach s x)
    (hm : 0 < mantissa x) : 0 < s.digits := by
  refine Nat.pos_of_ne_zero fun hzero => Nat.ne_of_gt hm ?_
  have hratio : s.ratio.1 = 0 := by
    unfold Scaled.ratio
    split <;> simp [hzero]
  rw [← h.value, Scaled.toFloat, hratio, nearest, if_pos rfl]
  rfl

end finite

end Reckon.Decimal
