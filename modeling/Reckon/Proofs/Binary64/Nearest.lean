import Reckon.Binary64.Rounding
import Reckon.Proofs.Binary64.Bits

/-! Rounding a quotient depends on its value only, and a quotient that is the magnitude of a double
is rounded to this double. -/
namespace Reckon.Binary64

/-- The condition `2 ^ k ≤ n / d`, in which one of the two powers is `1`. -/
def Reaches (n d : Nat) (k : Int) : Prop := d * 2 ^ k.toNat ≤ n * 2 ^ (-k).toNat

section reaches
variable {n d : Nat}

/-- The power may be any quotient of two powers. -/
theorem reaches_iff {p q : Nat} {k : Int} (h : k = p - q) :
    Reaches n d k ↔ d * 2 ^ p ≤ n * 2 ^ q := by
  let t := min p q
  have hp : p = k.toNat + t := by omega
  have hq : q = (-k).toNat + t := by omega
  rw [hp, hq, Nat.pow_add, Nat.pow_add, ← Nat.mul_assoc, ← Nat.mul_assoc]
  exact (Nat.mul_le_mul_right_iff (Nat.pow_pos (by decide))).symm

theorem Reaches.mono {k l : Int} (h : Reaches n d k) (hle : l ≤ k) : Reaches n d l := by
  let q := (-l).toNat
  have hk : k = (k + q).toNat - q := by omega
  have hl : l = (l + q).toNat - q := by omega
  rw [reaches_iff hk] at h
  rw [reaches_iff hl]
  have hpow : 2 ^ (l + q).toNat ≤ 2 ^ (k + q).toNat := Nat.pow_le_pow_right (by decide) (by omega)
  exact Nat.le_trans (Nat.mul_le_mul_left d hpow) h

private theorem reaches_scale {c : Nat} (hc : 0 < c) (k : Int) :
    Reaches (n * c) (d * c) k ↔ Reaches n d k := by
  unfold Reaches
  rw [Nat.mul_right_comm, Nat.mul_right_comm n]
  exact Nat.mul_le_mul_right_iff hc

private theorem reached_iff (k : Int) :
    (if 0 ≤ k then d <<< k.toNat ≤ n else d ≤ n <<< (-k).toNat) ↔ Reaches n d k := by
  unfold Reaches
  rw [Nat.shiftLeft_eq, Nat.shiftLeft_eq]
  split
  · have hk : (-k).toNat = 0 := by omega
    rw [hk, Nat.pow_zero, Nat.mul_one]
  · have hk : k.toNat = 0 := by omega
    rw [hk, Nat.pow_zero, Nat.mul_one]

theorem logRatio_spec (hn : n ≠ 0) (hd : d ≠ 0) :
    Reaches n d (logRatio n d) ∧ ¬ Reaches n d (logRatio n d + 1) := by
  have hnlow := Nat.log2_self_le hn
  have hnhigh := @Nat.lt_log2_self n
  have hdlow := Nat.log2_self_le hd
  have hdhigh := @Nat.lt_log2_self d
  have hbelow : Reaches n d (n.log2 - d.log2 - 1) := by
    rw [reaches_iff (p := n.log2) (q := d.log2 + 1) (by omega), Nat.mul_comm n]
    exact Nat.mul_le_mul (Nat.le_of_lt hdhigh) hnlow
  have habove : ¬ Reaches n d (n.log2 - d.log2 + 1) := by
    rw [reaches_iff (p := n.log2 + 1) (q := d.log2) (by omega), Nat.not_le]
    refine Nat.lt_of_lt_of_le ((Nat.mul_lt_mul_right (Nat.pow_pos (by decide))).mpr hnhigh) ?_
    rw [Nat.mul_comm]
    exact Nat.mul_le_mul_right _ hdlow
  have hreached := @reached_iff n d (n.log2 - d.log2)
  unfold logRatio
  dsimp only
  by_cases h : Reaches n d (n.log2 - d.log2)
  · rw [if_pos (hreached.mpr h)]
    exact ⟨h, habove⟩
  · rw [if_neg (mt hreached.mp h), Int.sub_add_cancel]
    exact ⟨hbelow, h⟩

theorem logRatio_eq (hn : n ≠ 0) (hd : d ≠ 0) {k : Int} (hk : Reaches n d k)
    (hk' : ¬ Reaches n d (k + 1)) : logRatio n d = k := by
  obtain ⟨hlow, hhigh⟩ := logRatio_spec hn hd
  have hle : ¬ logRatio n d + 1 ≤ k := fun h => hhigh (hk.mono h)
  have hge : ¬ k + 1 ≤ logRatio n d := fun h => hk' (hlow.mono h)
  omega

private theorem logRatio_scale (hn : n ≠ 0) (hd : d ≠ 0) {c : Nat} (hc : 0 < c) :
    logRatio (n * c) (d * c) = logRatio n d := by
  obtain ⟨hlow, hhigh⟩ := logRatio_spec hn hd
  refine logRatio_eq (Nat.mul_ne_zero hn (Nat.ne_of_gt hc)) (Nat.mul_ne_zero hd (Nat.ne_of_gt hc))
    ((reaches_scale hc _).mpr hlow) (mt (reaches_scale hc _).mp hhigh)

end reaches

theorem roundDiv_scale (n d : Nat) {c : Nat} (hc : 0 < c) :
    roundDiv (n * c) (d * c) = roundDiv n d := by
  have hlt {a b : Nat} : a * c < b * c ↔ a < b := Nat.mul_lt_mul_right hc
  unfold roundDiv
  simp only [Nat.mul_div_mul_right _ _ hc, Nat.mul_mod_mul_right, ← Nat.mul_assoc, hlt]

theorem roundScaled_scale (n d : Nat) {c : Nat} (hc : 0 < c) (e : Int) :
    roundScaled (n * c) (d * c) e = roundScaled n d e := by
  unfold roundScaled
  simp only [Nat.shiftLeft_eq, Nat.mul_right_comm _ c, roundDiv_scale _ _ hc]

/-- Common factors do not matter. -/
theorem nearest_scale (negative : Bool) (n : Nat) {d c : Nat} (hd : d ≠ 0) (hc : 0 < c) :
    nearest negative (n * c) (d * c) = nearest negative n d := by
  unfold nearest
  by_cases hn : n = 0
  · rw [if_pos hn, if_pos (by rw [hn, Nat.zero_mul])]
  · rw [if_neg hn, if_neg (Nat.mul_ne_zero hn (Nat.ne_of_gt hc)), logRatio_scale hn hd hc]
    exact congrArg (encode negative · _) (roundScaled_scale n d hc _)

section encode
variable (negative : Bool) (m : Nat) (e : Int)

theorem toNat_encode : (encode negative m e).toBits.toNat =
    min ((e + 1074).toNat * 2 ^ 52 + m) (2047 * 2 ^ 52) + if negative then 2 ^ 63 else 0 :=
  toNat_ofBits (Nat.min_le_right ..) negative

theorem encode_withSign : encode negative m e = withSign negative (encode false m e) := by
  have hmagnitude : (encode false m e).toBits.toNat % 2 ^ 63 =
      min ((e + 1074).toNat * 2 ^ 52 + m) (2047 * 2 ^ 52) := by
    rw [toNat_encode, if_neg Bool.false_ne_true]
    omega
  rw [withSign, hmagnitude, encode]

theorem isNaN_encode : (encode negative m e).isNaN = false := by
  have hle := Nat.min_le_right ((e + 1074).toNat * 2 ^ 52 + m) (2047 * 2 ^ 52)
  rw [Bool.eq_false_iff, Ne, isNaN_iff]
  unfold biasedExponent fraction
  rw [toNat_encode]
  split <;> omega

theorem isNegative_encode : isNegative (encode negative m e) = negative := by
  rw [encode_withSign, isNegative_withSign (isNaN_encode false m e)]

end encode

/-- The sign takes no part in the rounding. -/
theorem nearest_withSign (negative : Bool) (n d : Nat) :
    nearest negative n d = withSign negative (nearest false n d) := by
  unfold nearest
  split <;> exact encode_withSign ..

/-- What is rounded is a number with the given sign. -/
theorem nearest_isNumber (negative : Bool) (n d : Nat) :
    (nearest negative n d).isNaN = false ∧ isNegative (nearest negative n d) = negative := by
  unfold nearest
  split <;> exact ⟨isNaN_encode .., isNegative_encode ..⟩

theorem nearestScaled_isNumber (negative : Bool) (m : Nat) (e : Int) :
    (nearestScaled negative m e).isNaN = false ∧
      isNegative (nearestScaled negative m e) = negative := by
  unfold nearestScaled
  split <;> exact nearest_isNumber ..

section magnitude
variable {x : Float}

theorem fraction_lt (x : Float) : fraction x < 2 ^ 52 := Nat.mod_lt _ (by decide)

theorem mantissa_lt (x : Float) : mantissa x < 2 ^ 53 := by
  have h := fraction_lt x
  unfold mantissa
  split <;> omega

theorem exponent_bounds (h : x.isFinite = true) : -1074 ≤ exponent x ∧ exponent x ≤ 971 := by
  have he := isFinite_iff.mp h
  have hle := biasedExponent_le x
  unfold exponent
  omega

/-- The parts of a finite double are put together again. -/
theorem encode_eq (h : x.isFinite = true) (negative : Bool) :
    encode negative (mantissa x) (exponent x) = withSign negative x := by
  have he := isFinite_iff.mp h
  have hle := biasedExponent_le x
  have hf := fraction_lt x
  have hmagnitude : (exponent x + 1074).toNat * 2 ^ 52 + mantissa x = x.toBits.toNat % 2 ^ 63 := by
    rw [toNat_toBits]
    unfold exponent mantissa
    split <;> omega
  have hmin : min (x.toBits.toNat % 2 ^ 63) (2047 * 2 ^ 52) = x.toBits.toNat % 2 ^ 63 := by
    rw [toNat_toBits]
    omega
  unfold encode
  dsimp only
  rw [hmagnitude, hmin]
  rfl

theorem logRatio_magnitude {m : Nat} (hm : m ≠ 0) (e : Int) :
    logRatio (m * 2 ^ e.toNat) (2 ^ (-e).toNat) = m.log2 + e := by
  have hpos {k : Nat} : 0 < 2 ^ k := Nat.pow_pos (by decide)
  refine logRatio_eq (Nat.mul_ne_zero hm (Nat.ne_of_gt hpos)) (Nat.ne_of_gt hpos) ?_ ?_
  · rw [reaches_iff (p := m.log2 + e.toNat) (q := (-e).toNat) (by omega), Nat.mul_comm, Nat.pow_add]
    exact Nat.mul_le_mul_right _ (Nat.mul_le_mul_right _ (Nat.log2_self_le hm))
  · rw [reaches_iff (p := m.log2 + 1 + e.toNat) (q := (-e).toNat) (by omega), Nat.mul_comm,
      Nat.pow_add, Nat.not_le]
    exact (Nat.mul_lt_mul_right hpos).mpr ((Nat.mul_lt_mul_right hpos).mpr Nat.lt_log2_self)

/-- The last place of a quotient that is a double is that of the double. -/
theorem lastPlace_eq (h : 0 < mantissa x) :
    max (((mantissa x).log2 : Int) + exponent x - 52) (-1074) = exponent x := by
  have hne : mantissa x ≠ 0 := Nat.ne_of_gt h
  have hhigh : (mantissa x).log2 < 53 := (Nat.log2_lt hne).mpr (mantissa_lt x)
  by_cases he : biasedExponent x = 0
  · have hexponent : exponent x = -1074 := by
      unfold exponent
      omega
    have hmantissa : mantissa x < 2 ^ 52 := by
      rw [mantissa, if_pos he]
      exact fraction_lt x
    have hlog := (Nat.log2_lt hne).mpr hmantissa
    omega
  · have hmantissa : 2 ^ 52 ≤ mantissa x := by
      rw [mantissa, if_neg he]
      omega
    have hlog := (Nat.le_log2 hne).mpr hmantissa
    unfold exponent
    omega

theorem roundScaled_magnitude (m : Nat) (e : Int) :
    roundScaled (m * 2 ^ e.toNat) (2 ^ (-e).toNat) e = m := by
  have hpos {k : Nat} : 0 < 2 ^ k := Nat.pow_pos (by decide)
  unfold roundScaled
  split
  · have he : (-e).toNat = 0 := by omega
    rw [he, Nat.shiftLeft_eq, Nat.pow_zero, Nat.one_mul]
    exact roundDiv_exact m _ hpos
  · have he : e.toNat = 0 := by omega
    rw [he, Nat.shiftLeft_eq, Nat.pow_zero, Nat.mul_one]
    exact roundDiv_exact m _ hpos

/-- The magnitude of a double is rounded to the double. -/
theorem nearest_magnitude (h : x.isFinite = true) (hm : 0 < mantissa x) (negative : Bool) :
    nearest negative (mantissa x * 2 ^ (exponent x).toNat) (2 ^ (-exponent x).toNat) =
      withSign negative x := by
  have hpos : 0 < 2 ^ (exponent x).toNat := Nat.pow_pos (by decide)
  have hn : mantissa x * 2 ^ (exponent x).toNat ≠ 0 := Nat.ne_of_gt (Nat.mul_pos hm hpos)
  unfold nearest
  dsimp only
  rw [if_neg hn, logRatio_magnitude (Nat.ne_of_gt hm), lastPlace_eq hm, roundScaled_magnitude,
    encode_eq h]

end magnitude

end Reckon.Binary64
