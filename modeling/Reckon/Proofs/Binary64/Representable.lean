import Mathlib.Tactic.FieldSimp
import Reckon.Proofs.Binary64.Value

/-! Rounding a rational number to the nearest double. It is monotone, and a number that has a place
among the doubles is rounded to itself. -/
namespace Reckon.Binary64

def nearestRat (q : ℚ) : Float := nearest (q < 0) q.num.natAbs q.den

def Representable (q : ℚ) : Prop := ∃ x : Float, x.isFinite = true ∧ toRat x = q

theorem natAbs_num_div_den (q : ℚ) : (q.num.natAbs : ℚ) / q.den = |q| := by
  conv_rhs => rw [← Rat.num_div_den q]
  rw [abs_div, Nat.abs_cast, Nat.cast_natAbs, Int.cast_abs]

theorem zpow_eq_div (e : Int) : (2 : ℚ) ^ e = 2 ^ e.toNat / 2 ^ (-e).toNat := by
  have he : e = e.toNat - (-e).toNat := by omega
  conv_lhs => rw [he, zpow_sub₀ two_ne_zero, zpow_natCast, zpow_natCast]

theorem zpow_shift {e t : Int} (h : e ≤ t) : (2 : ℚ) ^ t = 2 ^ (t - e).toNat * 2 ^ e := by
  rw [← zpow_natCast, ← zpow_add₀ two_ne_zero]
  congr 1
  omega

theorem zpow_of_nonneg {e : Int} (h : 0 ≤ e) : (2 : ℚ) ^ e = (2 ^ e.toNat : Nat) := by
  have he : (-e).toNat = 0 := by omega
  rw [zpow_eq_div, he, pow_zero, div_one, Nat.cast_pow, Nat.cast_ofNat]

theorem zpow_of_neg {e : Int} (h : e < 0) : (2 : ℚ) ^ e = ((2 ^ (-e).toNat : Nat) : ℚ)⁻¹ := by
  have he : e.toNat = 0 := by omega
  rw [zpow_eq_div, he, pow_zero, one_div, Nat.cast_pow, Nat.cast_ofNat]

section representable
variable {m : Nat} {e : Int}

/-- What is put together from a mantissa and an exponent is taken apart into them. -/
theorem encode_parts (hm : m < 2 ^ 53) (hlow : -1074 ≤ e) (hhigh : e ≤ 971)
    (hnormal : 2 ^ 52 ≤ m ∨ e = -1074) :
    (encode false m e).isFinite = true ∧ mantissa (encode false m e) = m ∧
      exponent (encode false m e) = e := by
  have hbits := toNat_encode false m e
  rw [if_neg Bool.false_ne_true, Nat.add_zero, Nat.min_eq_left (by omega)] at hbits
  rw [isFinite_iff]
  unfold mantissa exponent biasedExponent fraction
  rw [hbits]
  refine ⟨by omega, ?_, by omega⟩
  split <;> omega

theorem toRat_encode (hm : m < 2 ^ 53) (hlow : -1074 ≤ e) (hhigh : e ≤ 971)
    (hnormal : 2 ^ 52 ≤ m ∨ e = -1074) : toRat (encode false m e) = m * (2 : ℚ) ^ e := by
  obtain ⟨-, hmantissa, hexponent⟩ := encode_parts hm hlow hhigh hnormal
  rw [toRat_eq_signed, isNegative_encode, hmantissa, hexponent]
  rfl

/-- A short mantissa may stand at any place in the range of the exponent. -/
theorem representable_of_mantissa (hm : m < 2 ^ 53) (hlow : -1074 ≤ e) (hhigh : e ≤ 971) :
    Representable (m * (2 : ℚ) ^ e) := by
  by_cases hzero : m = 0
  · obtain ⟨hfinite, -⟩ := @encode_parts 0 (-1074) (by decide) (by decide) (by decide) (.inr rfl)
    refine ⟨_, hfinite, ?_⟩
    rw [toRat_encode (by decide) (by decide) (by decide) (.inr rfl), hzero, Nat.cast_zero, zero_mul,
      zero_mul]
  -- shifted up until it is full or reaches the last place of the subnormals
  let s := min (52 - m.log2) (e + 1074).toNat
  have hlog : m.log2 < 53 := (Nat.log2_lt hzero).mpr hm
  have hshift : m * 2 ^ s < 2 ^ 53 := calc
    m * 2 ^ s < 2 ^ (m.log2 + 1) * 2 ^ s :=
      (Nat.mul_lt_mul_right (Nat.pow_pos (by decide))).mpr Nat.lt_log2_self
    _ = 2 ^ (m.log2 + 1 + s) := (Nat.pow_add ..).symm
    _ ≤ 2 ^ 53 := Nat.pow_le_pow_right (by decide) (by omega)
  have hnormal : 2 ^ 52 ≤ m * 2 ^ s ∨ e - s = -1074 := by
    by_cases hs : s = 52 - m.log2
    · left
      calc 2 ^ 52 = 2 ^ m.log2 * 2 ^ s := by rw [← Nat.pow_add, hs]; congr 1; omega
        _ ≤ m * 2 ^ s := Nat.mul_le_mul_right _ (Nat.log2_self_le hzero)
    · right
      omega
  obtain ⟨hfinite, -⟩ := encode_parts hshift (by omega) (by omega) hnormal
  refine ⟨_, hfinite, ?_⟩
  rw [toRat_encode hshift (by omega) (by omega) hnormal, zpow_sub₀ two_ne_zero, zpow_natCast]
  push_cast
  field_simp

theorem Representable.neg {q : ℚ} (h : Representable q) : Representable (-q) := by
  obtain ⟨x, hx, rfl⟩ := h
  exact ⟨-x, isFinite_neg hx, toRat_neg (isNaN_eq_false hx)⟩

theorem representable_natCast {n : Nat} (h : n ≤ 2 ^ 53) : Representable n := by
  obtain hlt | rfl := Nat.lt_or_eq_of_le h
  · have hvalue := @representable_of_mantissa n 0 hlt (by decide) (by decide)
    rwa [zpow_zero, mul_one] at hvalue
  · have hvalue := @representable_of_mantissa 1 53 (by decide) (by decide) (by decide)
    rwa [Nat.cast_one, one_mul, ← Nat.cast_ofNat, zpow_ofNat, ← Nat.cast_pow] at hvalue

/-- The integers that 53 bits hold. -/
theorem representable_intCast {n : ℤ} (h : |n| ≤ 2 ^ 53) : Representable n := by
  have habs := @representable_natCast n.natAbs (by rw [Int.abs_eq_natAbs] at h; omega)
  obtain hn | hn := Int.natAbs_eq n
  · rw [hn]
    exact habs
  · rw [hn, Int.cast_neg]
    exact habs.neg

end representable

section mono
variable {n d n' d' : Nat}

theorem roundDiv_mono (h : n ≤ n') (d : Nat) : roundDiv n d ≤ roundDiv n' d := by
  have hdiv : n / d ≤ n' / d := Nat.div_le_div_right h
  have hn := Nat.div_add_mod n d
  have hn' := Nat.div_add_mod n' d
  have hparity := Nat.mod_lt (n / d) (y := 2) (by decide)
  unfold roundDiv
  dsimp only
  obtain hlt | heq := Nat.lt_or_eq_of_le hdiv
  · have hlow : n / d + 1 ≤ n' / d := hlt
    split_ifs <;> omega
  · rw [heq] at hn ⊢
    have hmod : n % d ≤ n' % d := by omega
    split_ifs <;> omega

theorem roundScaled_eq (n d : Nat) (e : Int) :
    roundScaled n d e = roundDiv (n * 2 ^ (-e).toNat) (d * 2 ^ e.toNat) := by
  unfold roundScaled
  rw [Nat.shiftLeft_eq, Nat.shiftLeft_eq]
  split
  · have he : (-e).toNat = 0 := by omega
    rw [he, Nat.pow_zero, Nat.mul_one]
  · have he : e.toNat = 0 := by omega
    rw [he, Nat.pow_zero, Nat.mul_one]

theorem roundScaled_mono (hd : d ≠ 0) (hd' : d' ≠ 0) (h : n * d' ≤ n' * d) (e : Int) :
    roundScaled n d e ≤ roundScaled n' d' e := by
  rw [← roundScaled_scale n d (Nat.pos_of_ne_zero hd') e,
    ← roundScaled_scale n' d' (Nat.pos_of_ne_zero hd) e, Nat.mul_comm d' d, roundScaled_eq,
    roundScaled_eq]
  exact roundDiv_mono (Nat.mul_le_mul_right _ h) _

theorem Reaches.le {k : Int} (hd : d ≠ 0) (h : n * d' ≤ n' * d) (hk : Reaches n d k) :
    Reaches n' d' k := by
  unfold Reaches at hk ⊢
  apply Nat.le_of_mul_le_mul_left _ (Nat.pos_of_ne_zero hd)
  calc d * (d' * 2 ^ k.toNat)
    _ = d * 2 ^ k.toNat * d' := by ring
    _ ≤ n * 2 ^ (-k).toNat * d' := Nat.mul_le_mul_right _ hk
    _ = n * d' * 2 ^ (-k).toNat := by ring
    _ ≤ n' * d * 2 ^ (-k).toNat := Nat.mul_le_mul_right _ h
    _ = d * (n' * 2 ^ (-k).toNat) := by ring

theorem logRatio_mono (hn : n ≠ 0) (hd : d ≠ 0) (hd' : d' ≠ 0) (h : n * d' ≤ n' * d) :
    logRatio n d ≤ logRatio n' d' := by
  have hn' : n' ≠ 0 := by
    rintro rfl
    have hpos := Nat.mul_pos (Nat.pos_of_ne_zero hn) (Nat.pos_of_ne_zero hd')
    omega
  have hlow := (logRatio_spec hn hd).1.le hd h
  have hhigh := (logRatio_spec hn' hd').2
  by_contra hlt
  exact hhigh (hlow.mono (by omega))

/-- A quotient is rounded to 53 bits, all of them above the subnormals. -/
theorem roundScaled_bounds (hn : n ≠ 0) (hd : d ≠ 0) {e : Int}
    (he : e = max (logRatio n d - 52) (-1074)) :
    roundScaled n d e ≤ 2 ^ 53 ∧ (-1074 < e → 2 ^ 52 ≤ roundScaled n d e) := by
  have hden : 0 < d * 2 ^ e.toNat := Nat.mul_pos (Nat.pos_of_ne_zero hd) (Nat.pow_pos (by decide))
  obtain ⟨hlow, hhigh⟩ := logRatio_spec hn hd
  rw [roundScaled_eq]
  constructor
  · have habove : ¬ Reaches n d (e + 53) := mt (fun h => h.mono (by omega)) hhigh
    rw [reaches_iff (p := 53 + e.toNat) (q := (-e).toNat) (by omega), Nat.not_le, Nat.pow_add,
      Nat.mul_left_comm] at habove
    rw [← roundDiv_exact (2 ^ 53) _ hden]
    exact roundDiv_mono habove.le _
  · intro hnormal
    have hbelow : Reaches n d (e + 52) := hlow.mono (by omega)
    rw [reaches_iff (p := 52 + e.toNat) (q := (-e).toNat) (by omega), Nat.pow_add,
      Nat.mul_left_comm] at hbelow
    rw [← roundDiv_exact (2 ^ 52) _ hden]
    exact roundDiv_mono hbelow _

theorem magnitudeBits_encode (negative : Bool) (m : Nat) (e : Int) :
    magnitudeBits (encode negative m e) = min ((e + 1074).toNat * 2 ^ 52 + m) (2047 * 2 ^ 52) := by
  rw [magnitudeBits, toNat_encode]
  split <;> omega

/-- The greater quotient is not rounded to a smaller magnitude. -/
theorem magnitudeBits_nearest_mono (hd : d ≠ 0) (hd' : d' ≠ 0) (h : n * d' ≤ n' * d)
    (negative : Bool) :
    magnitudeBits (nearest negative n d) ≤ magnitudeBits (nearest negative n' d') := by
  by_cases hn : n = 0
  · rw [nearest, if_pos hn, magnitudeBits_encode]
    exact Nat.zero_le _
  have hn' : n' ≠ 0 := by
    rintro rfl
    have hpos := Nat.mul_pos (Nat.pos_of_ne_zero hn) (Nat.pos_of_ne_zero hd')
    omega
  have hlog := logRatio_mono hn hd hd' h
  have hhigh := (roundScaled_bounds hn hd rfl).1
  have hlow := (roundScaled_bounds hn' hd' rfl).2
  have hsame := roundScaled_mono hd hd' h (max (logRatio n d - 52) (-1074))
  unfold nearest
  dsimp only
  rw [if_neg hn, if_neg hn', magnitudeBits_encode, magnitudeBits_encode]
  by_cases he : max (logRatio n d - 52) (-1074) = max (logRatio n' d' - 52) (-1074)
  · rw [he] at hsame ⊢
    exact Nat.le_min.mpr ⟨(Nat.min_le_left ..).trans (Nat.add_le_add_left hsame _),
      Nat.min_le_right ..⟩
  · -- the greater quotient has a later last place and all its bits
    have hlow := hlow (by omega)
    omega

end mono

section nearest
variable {n d : Nat}

/-- Equal quotients are rounded alike. -/
theorem nearest_congr {n' d' : Nat} (hd : d ≠ 0) (hd' : d' ≠ 0) (h : n * d' = n' * d)
    (negative : Bool) : nearest negative n d = nearest negative n' d' := by
  rw [← nearest_scale negative n hd (Nat.pos_of_ne_zero hd'),
    ← nearest_scale negative n' hd' (Nat.pos_of_ne_zero hd), h, Nat.mul_comm d]

/-- A quotient is rounded like the number that has its value. -/
theorem nearest_eq_nearestRat {q : ℚ} (hd : d ≠ 0) (h : (n : ℚ) / d = |q|) :
    nearest (q < 0) n d = nearestRat q := by
  apply nearest_congr hd q.den_ne_zero
  rw [← natAbs_num_div_den, div_eq_div_iff (Nat.cast_ne_zero.mpr hd)
    (Nat.cast_ne_zero.mpr q.den_ne_zero)] at h
  exact_mod_cast h

/-- A quotient that is the magnitude of a double is rounded to this double. -/
theorem nearest_eq_withSign {x : Float} (hx : x.isFinite = true) (hd : d ≠ 0)
    (h : (n : ℚ) / d = |toRat x|) (negative : Bool) :
    nearest negative n d = withSign negative x := by
  rw [abs_toRat, zpow_eq_div, ← mul_div_assoc, div_eq_div_iff (by positivity) (by positivity)] at h
  have hcross : n * 2 ^ (-exponent x).toNat = mantissa x * 2 ^ (exponent x).toNat * d := by
    exact_mod_cast h
  have hpow : 2 ^ (-exponent x).toNat ≠ 0 := by positivity
  by_cases hzero : mantissa x = 0
  · have hn : n = 0 := by
      rw [hzero, Nat.zero_mul, Nat.zero_mul] at hcross
      exact (Nat.mul_eq_zero.mp hcross).resolve_right hpow
    have hexponent : exponent x = -1074 := by
      unfold exponent
      rw [(mantissa_eq_zero_iff.mp hzero).1]
      rfl
    rw [nearest, if_pos hn, ← encode_eq hx, hzero, hexponent]
  · rw [nearest_congr hd hpow hcross]
    exact nearest_magnitude hx (Nat.pos_of_ne_zero hzero) negative

/-- A double is the nearest to its value; of the zeros it is the positive one. -/
theorem nearestRat_toRat {x : Float} (hx : x.isFinite = true) (h : toRat x ≠ 0) :
    nearestRat (toRat x) = x := by
  have hsign : decide (toRat x < 0) = isNegative x := by
    rw [Bool.eq_iff_iff, decide_eq_true_iff]
    exact toRat_neg_iff h
  unfold nearestRat
  rw [nearest_eq_withSign hx (Rat.den_ne_zero _) (natAbs_num_div_den _), hsign,
    withSign_isNegative (isNaN_eq_false hx)]

theorem nearest_exact (hd : d ≠ 0) (h : Representable ((n : ℚ) / d)) (negative : Bool) :
    (nearest negative n d).isFinite = true ∧
      toRat (nearest negative n d) = signed negative (n / d) := by
  obtain ⟨x, hx, hvalue⟩ := h
  have hpos : (0 : ℚ) ≤ n / d := by positivity
  have hround := nearest_eq_withSign hx hd (by rw [hvalue, abs_of_nonneg hpos]) negative
  rw [hround, toRat_withSign (isNaN_eq_false hx), hvalue, abs_of_nonneg hpos]
  exact ⟨isFinite_withSign hx negative, rfl⟩

/-- A number that is the value of a double is rounded to a double with this value. -/
theorem nearestRat_exact {q : ℚ} (h : Representable q) :
    (nearestRat q).isFinite = true ∧ toRat (nearestRat q) = q := by
  have habs := natAbs_num_div_den q
  have hmagnitude : Representable |q| := by
    obtain hq | hq := abs_choice q <;> rw [hq]
    · exact h
    · exact h.neg
  obtain ⟨hfinite, hvalue⟩ := nearest_exact q.den_ne_zero (habs ▸ hmagnitude) (q < 0)
  refine ⟨hfinite, hvalue.trans ?_⟩
  rw [habs]
  unfold signed
  by_cases hq : q < 0
  · rw [if_pos (decide_eq_true hq), abs_of_neg hq, neg_neg]
  · rw [if_neg (by simpa using hq), abs_of_nonneg (not_lt.mp hq)]

theorem isNaN_nearestRat (q : ℚ) : (nearestRat q).isNaN = false := (nearest_isNumber ..).1

/-- Rounding keeps the order. -/
theorem place_nearestRat_mono {p q : ℚ} (h : p ≤ q) : place (nearestRat p) ≤ place (nearestRat q) := by
  have hcross := (Rat.le_iff p q).mp h
  have hp := @Rat.num_neg p
  have hq := @Rat.num_neg q
  have hmono := @magnitudeBits_nearest_mono
  unfold place nearestRat
  rw [(nearest_isNumber ..).2, (nearest_isNumber ..).2]
  by_cases hpneg : p < 0 <;> by_cases hqneg : q < 0 <;>
    simp only [hpneg, hqneg, decide_true, decide_false, if_true, if_false, Bool.false_eq_true]
  · have hle : q.num.natAbs * p.den ≤ p.num.natAbs * q.den := by
      zify
      rw [abs_of_neg (hp.mpr hpneg), abs_of_neg (hq.mpr hqneg)]
      linarith
    have hbits := hmono q.den_ne_zero p.den_ne_zero hle true
    omega
  · omega
  · exact absurd (h.trans_lt hqneg) hpneg
  · have hle : p.num.natAbs * q.den ≤ q.num.natAbs * p.den := by
      zify
      rw [abs_of_nonneg (not_lt.mp (mt hp.mp hpneg)), abs_of_nonneg (not_lt.mp (mt hq.mp hqneg))]
      exact hcross
    have hbits := hmono p.den_ne_zero q.den_ne_zero hle false
    omega

end nearest

end Reckon.Binary64
