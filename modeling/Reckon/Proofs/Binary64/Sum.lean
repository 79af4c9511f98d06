import Reckon.Proofs.Binary64.Representable

/-! Sums and differences of finite doubles. The exact sum is an integer at the smaller exponent, its
mantissa is shifted down to 53 bits with a round bit and a sticky bit, and what these bits round
to is the double nearest to the sum. -/
namespace Reckon.Binary64
open Float.Model Float.Model.Format Float.Model.UnpackedFloat

section shift

/-- A shifted mantissa: the quotient by the power of two, whether the remainder reaches a half, and
whether it is anything else than nothing and a half. -/
def Represents (em : ExtendedMantissa) (m n : Nat) : Prop :=
  em.mantissa = m / 2 ^ n ∧ (em.roundBit = true ↔ 2 ^ n ≤ 2 * (m % 2 ^ n)) ∧
    (em.stickyBit = true ↔ 2 * (m % 2 ^ n) ≠ 0 ∧ 2 * (m % 2 ^ n) ≠ 2 ^ n)

variable {em : ExtendedMantissa} {m n : Nat}

private theorem represents_exact (m : Nat) :
    Represents (ExtendedMantissa.ofMantissaAndAccuracy m .exact) m 0 := by
  unfold Represents ExtendedMantissa.ofMantissaAndAccuracy
  rw [Nat.pow_zero, Nat.div_one, Nat.mod_one]
  dsimp only
  exact ⟨rfl, by decide, by decide⟩

theorem Represents.shiftRightOne (h : Represents em m n) :
    Represents em.shiftRightOne m (n + 1) := by
  obtain ⟨hmantissa, hround, hsticky⟩ := h
  have hlt := Nat.mod_lt m (Nat.pow_pos (n := n) (show 0 < 2 by decide))
  have hmod : m % 2 ^ (n + 1) = m % 2 ^ n + 2 ^ n * (m / 2 ^ n % 2) := by
    rw [Nat.pow_succ, Nat.mod_mul]
  have hdiv : m / 2 ^ (n + 1) = m / 2 ^ n / 2 := by
    rw [Nat.pow_succ, Nat.div_div_eq_div_mul]
  unfold Represents ExtendedMantissa.shiftRightOne
  rw [hmod, hdiv, hmantissa, Nat.pow_succ, bne_iff_ne, Bool.or_eq_true, hround, hsticky]
  obtain hbit | hbit := Nat.mod_two_eq_zero_or_one (m / 2 ^ n) <;> rw [hbit] <;>
    refine ⟨rfl, ?_, ?_⟩ <;> omega

theorem Represents.shiftRight (h : Represents em m n) (k : Nat) :
    Represents (em >>> k) m (n + k) := by
  show Represents (k.repeat ExtendedMantissa.shiftRightOne em) m (n + k)
  induction k with
  | zero => exact h
  | succ k ih => exact ih.shiftRightOne

/-- The bits say what the mantissa is rounded to. -/
theorem Represents.roundedMantissa (h : Represents em m n) :
    em.roundedMantissa = roundDiv m (2 ^ n) := by
  obtain ⟨hmantissa, hround, hsticky⟩ := h
  obtain ⟨q, round, sticky⟩ := em
  have hpos : 0 < 2 ^ n := Nat.pow_pos (by decide)
  obtain rfl : q = m / 2 ^ n := hmantissa
  dsimp only at hround hsticky
  unfold roundDiv
  dsimp only
  cases round <;> cases sticky <;>
    simp only [Bool.false_eq_true, false_iff, true_iff, ExtendedMantissa.roundedMantissa,
      ExtendedMantissa.accuracy, Accuracy.roundToNearestEven] at hround hsticky ⊢ <;>
    split_ifs <;> omega

end shift

section pack
variable {m : Nat} {e : Int} (negative : Bool)

def toSign (negative : Bool) : Sign := if negative then .negative else .positive

private theorem toNat_toSign :
    (toSign negative).toBitVec.toNat * 2 ^ 63 = if negative then 2 ^ 63 else 0 := by
  cases negative <;> rfl

/-- A mantissa of 53 bits, or of fewer at the last place of the subnormals, is packed as it is
encoded. -/
theorem toNat_pack (hpos : 0 < m) (hm : m < 2 ^ 53) (he : -1074 ≤ e)
    (hnormal : 2 ^ 52 ≤ m ∨ e = -1074) :
    (UnpackedFloat.pack binary64 (.finite (toSign negative) m e hpos)).toNat =
      min ((e + 1074).toNat * 2 ^ 52 + m) (2047 * 2 ^ 52) + if negative then 2 ^ 63 else 0 := by
  have hbias : (e + binary64.exponentBias + binary64.mantissaBitsWithoutImplicit).toNat =
      (e + 1075).toNat := by
    show (e + (1023 : Nat) + (52 : Nat)).toNat = (e + 1075).toNat
    omega
  have hbits : m.log2 + 1 = binary64.mantissaBits ↔ 2 ^ 52 ≤ m := by
    have hlow := Nat.le_log2 (k := 52) hpos.ne'
    have hhigh := (Nat.log2_lt (k := 53) hpos.ne').mpr hm
    show m.log2 + 1 = 53 ↔ 2 ^ 52 ≤ m
    omega
  have hcapacity : 2 ^ binary64.exponentBits = 2048 := rfl
  have hallOnes : (-1#_ : BitVec binary64.exponentBits).toNat = 2047 := rfl
  unfold UnpackedFloat.pack
  dsimp only
  rw [hbias, hcapacity, ← toNat_toSign]
  simp only [hbits]
  split_ifs with hinf hfull
  · rw [packedInfinity, toNat_packComponents, hallOnes]
    show _ + 0 = _
    omega
  · rw [toNat_packComponents, BitVec.toNat_ofNat, BitVec.toNat_ofNat]
    omega
  · rw [toNat_packComponents, BitVec.toNat_ofNat, BitVec.toNat_ofNat]
    omega

/-- A mantissa at a place; none is a zero. -/
def ofParts (s : Sign) (m : Nat) (e : Int) : UnpackedFloat :=
  if h : m = 0 then .zero s else .finite s m e (Nat.pos_of_ne_zero h)

theorem ofModel_pack_ofParts (hm : m < 2 ^ 53) (he : -1074 ≤ e)
    (hnormal : 2 ^ 52 ≤ m ∨ e = -1074) :
    Float.ofModel (Float.Model.pack (ofParts (toSign negative) m e)) = encode negative m e := by
  unfold ofParts
  by_cases hzero : m = 0
  · obtain rfl : e = -1074 := by omega
    rw [dif_pos hzero, hzero]
    cases negative <;> decide +kernel
  · rw [dif_neg hzero]
    apply eq_of_toBits
    apply UInt64.toNat_inj.mp
    rw [toNat_encode]
    exact toNat_pack negative (Nat.pos_of_ne_zero hzero) hm he hnormal

end pack

section round
variable {m : Nat} {e : Int} (negative : Bool)

private theorem targetExponent_eq (m : Nat) (e : Int) :
    binary64.targetExponent (totalExponent m e) = max (m.log2 + e - 52) (-1074) := by
  show max (m.log2 + 1 + e - (53 : Nat)) (-1074) = _
  omega

private theorem shiftToTargetExponent_eq (m : Nat) (e : Int) :
    shiftToTargetExponent binary64 m e .exact =
      (ExtendedMantissa.ofMantissaAndAccuracy m .exact >>>
        (max (m.log2 + e - 52) (-1074) - e).toNat,
        e + (max (m.log2 + e - 52) (-1074) - e).toNat) := by
  unfold shiftToTargetExponent shiftToExponent
  rw [targetExponent_eq]

private theorem encode_carry (he : -1074 ≤ e) :
    encode negative (2 ^ 53) e = encode negative (2 ^ 52) (e + 1) := by
  apply eq_of_toBits
  apply UInt64.toNat_inj.mp
  rw [toNat_encode, toNat_encode]
  omega

/-- A rounded mantissa that has become longer than 53 bits is `2 ^ 53` and loses a zero. -/
theorem ofModel_pack_shift (hm : m ≤ 2 ^ 53) (he : -1074 ≤ e) (hnormal : 2 ^ 52 ≤ m ∨ e = -1074)
    {k : Nat} (hk : k = (max (m.log2 + e - 52) (-1074) - e).toNat) :
    Float.ofModel (Float.Model.pack (ofParts (toSign negative) (m / 2 ^ k) (e + k))) =
      encode negative m e := by
  obtain hlt | rfl := Nat.lt_or_eq_of_le hm
  · have hlog : m.log2 ≤ 52 := by
      by_cases hzero : m = 0
      · rw [hzero]
        decide
      · exact Nat.le_of_lt_succ ((Nat.log2_lt hzero).mpr hlt)
    obtain rfl : k = 0 := by omega
    rw [Nat.pow_zero, Nat.div_one, Nat.cast_zero, add_zero]
    exact ofModel_pack_ofParts negative hlt he hnormal
  · obtain rfl : k = 1 := by
      rw [Nat.log2_two_pow] at hk
      omega
    rw [encode_carry negative he]
    exact ofModel_pack_ofParts negative (by decide) (by omega) (.inl (Nat.le_refl _))

private theorem roundedMantissa_shiftRight (m n : Nat) :
    (ExtendedMantissa.ofMantissaAndAccuracy m .exact >>> n).roundedMantissa =
      roundDiv m (2 ^ n) := by
  rw [((represents_exact m).shiftRight n).roundedMantissa, Nat.zero_add]

theorem mantissa_shiftRight (m n : Nat) :
    (ExtendedMantissa.ofMantissaAndAccuracy m .exact >>> n).mantissa = m / 2 ^ n := by
  rw [((represents_exact m).shiftRight n).1, Nat.zero_add]

/-- A mantissa at a place that is not too high is shifted down and rounded. -/
theorem ofModel_pack_roundWithAccuracy {t : Int} {r : Nat} (he : e ≤ t)
    (ht : t = max (m.log2 + e - 52) (-1074)) (hr : r = roundDiv m (2 ^ (t - e).toNat))
    (hhigh : r ≤ 2 ^ 53) (hlow : 2 ^ 52 ≤ r ∨ t = -1074) :
    Float.ofModel (Float.Model.pack
      (roundWithAccuracy binary64 (toSign negative) m e .exact)) = encode negative r t := by
  have hexponent : e + (t - e).toNat = t := by omega
  unfold roundWithAccuracy
  rw [shiftToTargetExponent_eq, ← ht]
  dsimp only
  rw [shiftToTargetExponent_eq, roundedMantissa_shiftRight, ← hr, hexponent]
  let k := (max (r.log2 + t - 52) (-1074) - t).toNat
  let em := ExtendedMantissa.ofMantissaAndAccuracy r .exact >>> k
  show Float.ofModel (Float.Model.pack (ofParts (toSign negative) em.mantissa (t + k))) = _
  rw [mantissa_shiftRight]
  exact ofModel_pack_shift negative hhigh (by omega) hlow rfl

theorem log2_shiftLeft (hm : m ≠ 0) (k : Nat) : (m <<< k).log2 = m.log2 + k := by
  have hne : m <<< k ≠ 0 := by
    rw [Nat.shiftLeft_eq]
    positivity
  apply (Nat.log2_eq_iff hne).mpr
  rw [Nat.shiftLeft_eq, Nat.pow_add, Nat.add_right_comm, Nat.pow_add]
  exact ⟨Nat.mul_le_mul_right _ (Nat.log2_self_le hm),
    (Nat.mul_lt_mul_right (Nat.pow_pos (by decide))).mpr Nat.lt_log2_self⟩

/-- The quotient that a shifted mantissa is. -/
theorem roundScaled_shift (m : Nat) (e t : Int) :
    roundScaled (m * 2 ^ e.toNat) (2 ^ (-e).toNat) t =
      roundDiv (m <<< (e - t).toNat) (2 ^ (t - e).toNat) := by
  let c := e.toNat + (-t).toNat - (e - t).toNat
  have hn : e.toNat + (-t).toNat = (e - t).toNat + c := by omega
  have hd : (-e).toNat + t.toNat = (t - e).toNat + c := by omega
  rw [roundScaled_eq, Nat.mul_assoc, ← Nat.pow_add, ← Nat.pow_add, hn, hd, Nat.pow_add, Nat.pow_add,
    ← Nat.mul_assoc, roundDiv_scale _ _ (Nat.pow_pos (by decide)), Nat.shiftLeft_eq]

theorem nearestScaled_eq (negative : Bool) (m : Nat) (e : Int) :
    nearestScaled negative m e = nearest negative (m * 2 ^ e.toNat) (2 ^ (-e).toNat) := by
  unfold nearestScaled
  rw [Nat.shiftLeft_eq, Nat.shiftLeft_eq, Nat.one_mul]
  split
  · have he : (-e).toNat = 0 := by omega
    rw [he, Nat.pow_zero]
  · have he : e.toNat = 0 := by omega
    rw [he, Nat.pow_zero, Nat.mul_one]

/-- A mantissa at any place is rounded to the nearest double. -/
theorem ofModel_pack_round (hm : m ≠ 0) :
    Float.ofModel (Float.Model.pack (UnpackedFloat.round binary64 (toSign negative) m e)) =
      nearestScaled negative m e := by
  have hn : m * 2 ^ e.toNat ≠ 0 := by positivity
  have hd : 2 ^ (-e).toNat ≠ 0 := by positivity
  have hlog := logRatio_magnitude hm e
  obtain ⟨hhigh, hlow⟩ := roundScaled_bounds hn hd rfl
  rw [hlog, roundScaled_shift] at hhigh hlow
  rw [nearestScaled_eq, nearest, if_neg hn]
  dsimp only
  rw [hlog, roundScaled_shift]
  unfold UnpackedFloat.round decreaseExponent
  rw [targetExponent_eq]
  dsimp only
  generalize ht : max (m.log2 + e - 52) (-1074) = t at hhigh hlow ⊢
  apply ofModel_pack_roundWithAccuracy negative
  · omega
  · rw [log2_shiftLeft hm]
    omega
  · congr 2
    omega
  · exact hhigh
  · omega

end round

section add
variable {x y : Float}

/-- An integer at any place is rounded like its value. -/
theorem nearestScaled_eq_nearestRat (z e : Int) :
    nearestScaled (z < 0) z.natAbs e = nearestRat (z * (2 : ℚ) ^ e) := by
  have hpow : (0 : ℚ) < 2 ^ e := by positivity
  have hsign : z < 0 ↔ z * (2 : ℚ) ^ e < 0 := by
    rw [← Int.cast_lt_zero (R := ℚ)]
    constructor
    · exact fun h => mul_neg_of_neg_of_pos h hpow
    · exact fun h => neg_of_mul_neg_left h hpow.le
  rw [nearestScaled_eq, decide_eq_decide.mpr hsign]
  apply nearest_eq_nearestRat (by positivity)
  rw [abs_mul, abs_of_pos hpow, zpow_eq_div]
  push_cast
  rw [mul_div_assoc, Nat.cast_natAbs, Int.cast_abs]

theorem ofModel_pack_normalize {z : Int} (hz : z ≠ 0) (e : Int) (s : Sign) :
    Float.ofModel (Float.Model.pack (UnpackedFloat.normalize binary64 z e s)) =
      nearestRat (z * (2 : ℚ) ^ e) := by
  rw [← nearestScaled_eq_nearestRat]
  unfold UnpackedFloat.normalize
  obtain hlt | hgt := Int.lt_or_gt_of_ne hz
  · have hcompare : compare z 0 = .lt := Int.compare_eq_lt.mpr hlt
    have habs : (-z).toNat = z.natAbs := by omega
    rw [hcompare, decide_eq_true hlt]
    dsimp only
    rw [habs]
    exact ofModel_pack_round true (by omega)
  · have hcompare : compare z 0 = .gt := Int.compare_eq_gt.mpr hgt
    have habs : z.toNat = z.natAbs := by omega
    rw [hcompare, decide_eq_false (by omega)]
    dsimp only
    rw [habs]
    exact ofModel_pack_round false (by omega)

/-- A mantissa is moved to a lower place. -/
theorem aligned_eq_toRat {e : Int} (h : e ≤ exponent x) :
    ((sign x).apply ↑(mantissa x <<< (exponent x - e).toNat) : Int) * (2 : ℚ) ^ e = toRat x := by
  rw [toRat_eq_signed, Nat.shiftLeft_eq, zpow_shift h]
  unfold sign signed
  split <;> simp only [Sign.apply] <;> push_cast <;> ring

/-- The sum of two doubles that are not zero. -/
theorem add_finite (hx : x.isFinite = true) (hy : y.isFinite = true) (hxz : toRat x ≠ 0)
    (hyz : toRat y ≠ 0) : x + y =
      if toRat x + toRat y = 0 then 0 else nearestRat (toRat x + toRat y) := by
  have hxm : 0 < mantissa x := Nat.pos_of_ne_zero (mt toRat_eq_zero_iff.mpr hxz)
  have hym : 0 < mantissa y := Nat.pos_of_ne_zero (mt toRat_eq_zero_iff.mpr hyz)
  let e := min (exponent x) (exponent y)
  let z := (sign x).apply ↑(mantissa x <<< (exponent x - e).toNat) +
    (sign y).apply ↑(mantissa y <<< (exponent y - e).toNat)
  have hsum : z * (2 : ℚ) ^ e = toRat x + toRat y := by
    rw [← aligned_eq_toRat (Int.min_le_left ..), ← aligned_eq_toRat (Int.min_le_right ..), ← add_mul]
    exact congrArg (· * (2 : ℚ) ^ e) (Int.cast_add ..)
  have hadd : x + y = Float.ofModel (Float.Model.pack (normalize binary64 z e .positive)) := by
    show Float.ofModel (Float.Model.pack (add binary64 x.toModel.unpack y.toModel.unpack)) = _
    rw [unpack_finite (isFinite_iff.mp hx) hxm, unpack_finite (isFinite_iff.mp hy) hym]
    rfl
  rw [hadd, ← hsum]
  by_cases hz : z = 0
  · rw [if_pos (by rw [hz, Int.cast_zero, zero_mul]), hz]
    show Float.ofModel (Float.Model.pack (.zero .positive)) = 0
    decide +kernel
  · rw [if_neg (mul_ne_zero (Int.cast_ne_zero.mpr hz) (by positivity))]
    exact ofModel_pack_normalize hz e _

theorem add_zero_left (hx : toRat x = 0) (hy : toRat y ≠ 0) (hfinite : y.isFinite = true) :
    x + y = y := by
  have hym : 0 < mantissa y := Nat.pos_of_ne_zero (mt toRat_eq_zero_iff.mpr hy)
  show Float.ofModel (Float.Model.pack (add binary64 x.toModel.unpack y.toModel.unpack)) = _
  rw [unpack_zero (toRat_eq_zero_iff.mp hx)]
  have hadd : add binary64 (.zero (sign x)) y.toModel.unpack = y.toModel.unpack := by
    rw [unpack_finite (isFinite_iff.mp hfinite) hym]
    rfl
  rw [hadd]
  exact ofBits_toBits y

theorem add_zero_right (hx : toRat x ≠ 0) (hy : toRat y = 0) (hfinite : x.isFinite = true) :
    x + y = x := by
  have hxm : 0 < mantissa x := Nat.pos_of_ne_zero (mt toRat_eq_zero_iff.mpr hx)
  show Float.ofModel (Float.Model.pack (add binary64 x.toModel.unpack y.toModel.unpack)) = _
  rw [unpack_zero (toRat_eq_zero_iff.mp hy)]
  have hadd : add binary64 x.toModel.unpack (.zero (sign y)) = x.toModel.unpack := by
    rw [unpack_finite (isFinite_iff.mp hfinite) hxm]
    rfl
  rw [hadd]
  exact ofBits_toBits x

/-- The sum of two zeros is a zero, negative only if both are. -/
theorem add_zeros (hx : toRat x = 0) (hy : toRat y = 0) :
    (x + y).isFinite = true ∧ toRat (x + y) = 0 := by
  have hadd : x + y = 0 ∨ x + y = -0.0 := by
    show Float.ofModel (Float.Model.pack (add binary64 x.toModel.unpack y.toModel.unpack)) = _ ∨
      Float.ofModel (Float.Model.pack (add binary64 x.toModel.unpack y.toModel.unpack)) = _
    rw [unpack_zero (toRat_eq_zero_iff.mp hx), unpack_zero (toRat_eq_zero_iff.mp hy)]
    cases sign x <;> cases sign y <;> decide +kernel
  rw [← beq_zero_iff_toRat]
  obtain hadd | hadd := hadd <;> rw [hadd] <;> decide +kernel

/-- A sum that does not vanish is rounded to the nearest double. -/
theorem add_eq_nearestRat (hx : x.isFinite = true) (hy : y.isFinite = true)
    (h : toRat x + toRat y ≠ 0) : x + y = nearestRat (toRat x + toRat y) := by
  by_cases hxz : toRat x = 0
  · rw [hxz, zero_add] at h ⊢
    rw [add_zero_left hxz h hy, nearestRat_toRat hy h]
  by_cases hyz : toRat y = 0
  · rw [hyz, add_zero] at h ⊢
    rw [add_zero_right h hyz hx, nearestRat_toRat hx h]
  rw [add_finite hx hy hxz hyz, if_neg h]

/-- A sum that has a place among the doubles is exact. -/
theorem add_exact (hx : x.isFinite = true) (hy : y.isFinite = true)
    (h : Representable (toRat x + toRat y)) :
    (x + y).isFinite = true ∧ toRat (x + y) = toRat x + toRat y := by
  by_cases hsum : toRat x + toRat y = 0
  · by_cases hxz : toRat x = 0
    · rw [hsum]
      rw [hxz, zero_add] at hsum
      exact add_zeros hxz hsum
    · have hyz : toRat y ≠ 0 := fun hyz => hxz (by rwa [hyz, add_zero] at hsum)
      rw [add_finite hx hy hxz hyz, if_pos hsum, hsum]
      decide +kernel
  · rw [add_eq_nearestRat hx hy hsum]
    exact nearestRat_exact h

theorem apply_neg (s : Sign) (n : Int) : (-s).apply n = -s.apply n := by
  cases s
  · exact (Int.neg_neg n).symm
  · rfl

theorem unpacked_sub (u v : UnpackedFloat) : sub binary64 u v = add binary64 u v.neg := by
  obtain s | - | s | ⟨s, m, e, hm⟩ := u <;> obtain t | - | t | ⟨t, n, f, hn⟩ := v <;> try rfl
  unfold UnpackedFloat.sub UnpackedFloat.add UnpackedFloat.neg
  dsimp only
  rw [apply_neg, Int.sub_eq_add_neg]

theorem sub_eq_add (hy : y.isNaN = false) : x - y = x + -y := by
  show Float.ofModel (Float.Model.pack (sub binary64 x.toModel.unpack y.toModel.unpack)) =
    Float.ofModel (Float.Model.pack (add binary64 x.toModel.unpack (-y).toModel.unpack))
  rw [unpacked_sub, neg_unpack hy, neg_eq_withSign hy]

theorem toRat_add_neg (hy : y.isFinite = true) : toRat x + toRat (-y) = toRat x - toRat y := by
  rw [toRat_neg (isNaN_eq_false hy), sub_eq_add_neg]

theorem sub_eq_nearestRat (hx : x.isFinite = true) (hy : y.isFinite = true)
    (h : toRat x - toRat y ≠ 0) : x - y = nearestRat (toRat x - toRat y) := by
  rw [← toRat_add_neg hy] at h ⊢
  rw [sub_eq_add (isNaN_eq_false hy)]
  exact add_eq_nearestRat hx (isFinite_neg hy) h

theorem sub_exact (hx : x.isFinite = true) (hy : y.isFinite = true)
    (h : Representable (toRat x - toRat y)) :
    (x - y).isFinite = true ∧ toRat (x - y) = toRat x - toRat y := by
  rw [← toRat_add_neg hy] at h ⊢
  rw [sub_eq_add (isNaN_eq_false hy)]
  exact add_exact hx (isFinite_neg hy) h

end add

end Reckon.Binary64
