import Mathlib.Data.Int.ModEq
import Reckon.Math.Function
import Reckon.Proofs.Binary64.Remainder

/-! Doubles as 32-bit words. A finite double is the word of its integer part, modulo `2 ^ 32`; products
and leading zeros are those of the words. -/
namespace Reckon.Binary64
open Float.Model Float.Model.UnpackedFloat

/-- The integer that is left without the places below the point. -/
def integerPart (q : ℚ) : ℤ := if q < 0 then ⌈q⌉ else ⌊q⌋

section integerPart
variable {x : Float}

theorem integerPart_toRat (x : Float) :
    integerPart (toRat x) = if isNegative x then -⌊|toRat x|⌋ else ⌊|toRat x|⌋ := by
  have hnonneg := abs_nonneg (toRat x)
  rw [toRat_eq_signed_abs, abs_signed, abs_abs]
  generalize |toRat x| = q at hnonneg ⊢
  unfold integerPart signed
  cases isNegative x
  · simp only [Bool.false_eq_true, if_false]
    rw [if_neg (not_lt.mpr hnonneg)]
  · simp only [if_true]
    obtain hzero | hpos := hnonneg.eq_or_lt
    · rw [← hzero]
      rfl
    · rw [if_pos (neg_neg_of_pos hpos), Int.ceil_neg]

theorem toRat_truncate (hx : x.isFinite = true) :
    (truncate x).isFinite = true ∧ toRat (truncate x) = integerPart (toRat x) := by
  obtain ⟨hfinite, -, hvalue⟩ := truncate_spec hx
  rw [hvalue, integerPart_toRat]
  refine ⟨hfinite, ?_⟩
  unfold signed
  split
  · exact (Int.cast_neg _).symm
  · rfl

private theorem floor_abs_toRat (x : Float) :
    ⌊|toRat x|⌋ = (mantissa x * 2 ^ (exponent x).toNat / 2 ^ (-exponent x).toNat : Nat) := by
  have hvalue : |toRat x| =
      (mantissa x * 2 ^ (exponent x).toNat : Nat) / (2 ^ (-exponent x).toNat : Nat) := by
    rw [abs_toRat, zpow_eq_div]
    push_cast
    rw [mul_div_assoc]
  rw [hvalue]
  exact (floor_div_ceil_div _ (Nat.pow_pos (by decide))).1

/-- Conversion to an integer cuts off the places below the point. -/
theorem toInt_unpack (hx : x.isFinite = true) (low high : Int) :
    x.toModel.unpack.toInt low high = integerPart (toRat x) := by
  by_cases hzero : mantissa x = 0
  · rw [unpack_zero hzero, toRat_eq_zero_iff.mpr hzero]
    rfl
  have hshift : (0 - (exponent x - (exponent x - 0).toNat)).toNat = (-exponent x).toNat := by omega
  rw [unpack_finite (isFinite_iff.mp hx) (Nat.pos_of_ne_zero hzero), integerPart_toRat,
    floor_abs_toRat]
  show roundToInt (sign x) (mantissa x) (exponent x) = _
  unfold roundToInt decreaseExponent shiftToExponent
  dsimp only
  rw [mantissa_shiftRight, hshift, Int.sub_zero, Nat.shiftLeft_eq]
  unfold sign
  split <;> rfl

theorem toNat_toUInt32 (hx : x.isFinite = true) {n : Nat} (hvalue : toRat x = n) (hn : n < 2 ^ 32) :
    x.toUInt32.toNat = n := by
  have hpart : integerPart n = n := by
    rw [integerPart, if_neg (not_lt.mpr (Nat.cast_nonneg n)), Int.floor_natCast]
  show (UInt32.ofNatClamp (x.toModel.unpack.toInt 0 (UInt32.size - 1)).toNat).toNat = n
  rw [toInt_unpack hx, hvalue, hpart, Int.toNat_natCast, UInt32.ofNatClamp_eq_ofNat n hn,
    UInt32.toNat_ofNat']
  exact Nat.mod_eq_of_lt hn

end integerPart

section word
variable {x : Float} {z : ℤ}

/-- The remainder with the sign of the dividend, from the one that is not negative. -/
theorem tmod_word (z : ℤ) : z.tmod (2 ^ 32) =
    if 0 ≤ z ∨ 2 ^ 32 ∣ z then z % 2 ^ 32 else z % 2 ^ 32 - 2 ^ 32 := by
  rw [Int.tmod_eq_emod]
  split
  · exact Int.sub_zero _
  · rfl

theorem remainder_integer (hx : x.isFinite = true) (hz : toRat x = z) :
    (remainder x 4294967296).isFinite = true ∧ toRat (remainder x 4294967296) = z.tmod (2 ^ 32) := by
  have hword : toRat 4294967296 = 2 ^ 32 := by decide +kernel
  have hzero : toRat 4294967296 ≠ 0 := by decide +kernel
  obtain ⟨hfinite, hsign, hvalue⟩ := remainder_spec hx (by decide +kernel) hzero
  refine ⟨hfinite, ?_⟩
  have hmod : |toRat (remainder x 4294967296)| = (z.natAbs % 2 ^ 32 : Nat) := by
    have hfloor := (floor_div_ceil_div z.natAbs (show 0 < 2 ^ 32 by decide)).1
    have hdiv : (z.natAbs : ℚ) = (2 ^ 32 : Nat) * (z.natAbs / 2 ^ 32 : Nat) +
        (z.natAbs % 2 ^ 32 : Nat) := by exact_mod_cast (Nat.div_add_mod ..).symm
    have habs : |(z : ℚ)| = z.natAbs := by rw [Nat.cast_natAbs, Int.cast_abs]
    have hpow : |(2 : ℚ) ^ 32| = (2 ^ 32 : Nat) := by norm_num
    rw [hvalue, hz, hword, habs, hpow, hfloor, Int.cast_natCast]
    linarith
  have htmod : z.tmod (2 ^ 32) =
      if z < 0 then -((z.natAbs % 2 ^ 32 : Nat) : ℤ) else (z.natAbs % 2 ^ 32 : Nat) := by
    rw [tmod_word]
    omega
  rw [toRat_eq_signed_abs, hsign, hmod, htmod]
  unfold signed
  by_cases hx0 : toRat x = 0
  · obtain rfl : z = 0 := by exact_mod_cast hz.symm.trans hx0
    split <;> rfl
  · have hneg := toRat_neg_iff hx0
    rw [hz, Int.cast_lt_zero] at hneg
    simp only [← hneg]
    split
    · rw [Int.cast_neg, Int.cast_natCast]
    · rw [Int.cast_natCast]

theorem euclideanRemainder_integer (hx : x.isFinite = true) (hz : toRat x = z) :
    (euclideanRemainder x 4294967296).isFinite = true ∧
      toRat (euclideanRemainder x 4294967296) = (z % 2 ^ 32 : ℤ) := by
  have hzero : toRat 0 = 0 := by decide +kernel
  have habs : abs 4294967296 = 4294967296 := by decide +kernel
  have hword : toRat 4294967296 = (2 ^ 32 : ℤ) := by decide +kernel
  have hmod : z % 2 ^ 32 =
      if z.tmod (2 ^ 32) < 0 then z.tmod (2 ^ 32) + 2 ^ 32 else z.tmod (2 ^ 32) := by
    rw [tmod_word]
    omega
  obtain ⟨hfinite, hvalue⟩ := remainder_integer hx hz
  have hneg : remainder x 4294967296 < 0 ↔ z.tmod (2 ^ 32) < 0 := by
    rw [lt_iff_toRat hfinite (by decide +kernel), hzero, hvalue, Int.cast_lt_zero]
  unfold euclideanRemainder
  dsimp only
  rw [habs]
  by_cases h : z.tmod (2 ^ 32) < 0
  · have hsum := add_exact (y := 4294967296) hfinite (by decide +kernel)
    rw [hvalue, hword, ← Int.cast_add] at hsum
    rw [if_pos (hneg.mpr h), hmod, if_pos h]
    apply hsum
    apply representable_intCast
    rw [abs_le]
    omega
  · rw [if_neg (mt hneg.mp h), hmod, if_neg h]
    exact ⟨hfinite, hvalue⟩

/-- The word of a finite double is its integer part, wrapped. -/
theorem toNat_toWord (hx : x.isFinite = true) :
    ((toWord x).toNat : ℤ) = integerPart (toRat x) % 2 ^ 32 := by
  obtain ⟨htruncate, hpart⟩ := toRat_truncate hx
  obtain ⟨hfinite, hvalue⟩ := euclideanRemainder_integer htruncate hpart
  have hlow := Int.emod_nonneg (integerPart (toRat x)) (b := 2 ^ 32) (by decide)
  have hhigh := Int.emod_lt_of_pos (integerPart (toRat x)) (b := 2 ^ 32) (by decide)
  obtain ⟨n, hn⟩ := Int.eq_ofNat_of_zero_le hlow
  rw [hn] at hvalue hhigh ⊢
  rw [toWord, if_pos hx, toNat_toUInt32 hfinite (hvalue.trans (Int.cast_natCast n)) (by omega)]

theorem toInt_toSignedWord (x : Float) :
    (toSignedWord x).toInt = ((toWord x).toNat : ℤ).bmod (2 ^ 32) :=
  BitVec.toInt_eq_toNat_bmod _

theorem ofInt_exact (h : |z| ≤ 2 ^ 53) : (ofInt z).isFinite = true ∧ toRat (ofInt z) = z := by
  have hsign : z < 0 ↔ (z : ℚ) < 0 := Int.cast_lt_zero.symm
  have hround : ofInt z = nearestRat z := by
    rw [ofInt, decide_eq_decide.mpr hsign]
    apply nearest_eq_nearestRat one_ne_zero
    rw [Nat.cast_one, div_one, Nat.cast_natAbs, Int.cast_abs]
  rw [hround]
  exact nearestRat_exact (representable_intCast h)

/-- The product of two words, wrapped into the signed range. -/
theorem wordProduct_spec (x y : Float) : (wordProduct x y).isFinite = true ∧
    toRat (wordProduct x y) = (((toWord x).toNat * (toWord y).toNat : ℤ).bmod (2 ^ 32) : ℤ) := by
  have hproduct : (toSignedWord x * toSignedWord y).toInt =
      ((toWord x).toNat * (toWord y).toNat : ℤ).bmod (2 ^ 32) := by
    rw [Int32.toInt_mul, toInt_toSignedWord, toInt_toSignedWord, Int.bmod_mul_bmod,
      Int.mul_bmod_bmod]
  have hlow := (toSignedWord x * toSignedWord y).le_toInt
  have hhigh := (toSignedWord x * toSignedWord y).toInt_lt
  rw [← hproduct]
  apply ofInt_exact
  rw [abs_le]
  omega

theorem leadingZeros_eq (x : Float) : (leadingZeros x).isFinite = true ∧
    toRat (leadingZeros x) =
      (if (toWord x).toNat = 0 then 32 else 31 - (toWord x).toNat.log2 : Nat) := by
  apply ofNat_exact
  split <;> omega

private theorem leadingZeros_iff {w n : Nat} (hpos : w ≠ 0) (hw : w < 2 ^ 32) :
    n ≤ 31 ∧ 2 ^ (31 - n) ≤ w ∧ w < 2 ^ (32 - n) ↔ 31 - w.log2 = n := by
  have hlog : w.log2 < 32 := (Nat.log2_lt hpos).mpr hw
  constructor
  · rintro ⟨hn, hlow, hhigh⟩
    have hexact : w.log2 = 31 - n := by
      apply (Nat.log2_eq_iff hpos).mpr
      rw [show 31 - n + 1 = 32 - n by omega]
      exact ⟨hlow, hhigh⟩
    omega
  · rintro rfl
    have hlow := Nat.log2_self_le hpos
    have hhigh := Nat.lt_log2_self (n := w)
    rw [show 31 - (31 - w.log2) = w.log2 by omega, show 32 - (31 - w.log2) = w.log2 + 1 by omega]
    exact ⟨by omega, hlow, hhigh⟩

end word

end Reckon.Binary64

namespace Reckon.Math.Function
open Binary64

/-- A double is the word congruent to its integer part, a product the signed word congruent to the
product of the words, and the number of leading zeros places the word between two powers of two. -/
theorem apply_words (a b : Float) :
    (a.isFinite = false → toWord a = 0) ∧
    (a.isFinite = true → ∀ n : ℤ,
      0 ≤ n ∧ n < 2 ^ 32 ∧ n ≡ integerPart (toRat a) [ZMOD 2 ^ 32] ↔ n = (toWord a).toNat) ∧
    ((imul.apply [a, b]).isFinite = true ∧ ∀ p : ℤ,
      -2 ^ 31 ≤ p ∧ p < 2 ^ 31 ∧ p ≡ (toWord a).toNat * (toWord b).toNat [ZMOD 2 ^ 32] ↔
        toRat (imul.apply [a, b]) = p) ∧
    imul.apply [a, b] = imul.apply [b, a] ∧
    (toWord a = 0 → clz32.apply [a] = 32) ∧
    (toWord a ≠ 0 → (clz32.apply [a]).isFinite = true ∧ ∀ n : Nat,
      n ≤ 31 ∧ 2 ^ (31 - n) ≤ (toWord a).toNat ∧ (toWord a).toNat < 2 ^ (32 - n) ↔
        toRat (clz32.apply [a]) = n) := by
  have himul (x y : Float) : imul.apply [x, y] = wordProduct x y := rfl
  have hclz (x : Float) : clz32.apply [x] = leadingZeros x := rfl
  simp only [himul, hclz]
  refine ⟨fun ha => ?_, fun ha n => ?_, ⟨(wordProduct_spec a b).1, fun p => ?_⟩, ?_, fun hzero => ?_,
    fun hne => ⟨(leadingZeros_eq a).1, fun n => ?_⟩⟩
  · rw [toWord, if_neg (by rw [ha]; exact Bool.false_ne_true)]
  · have hword := toNat_toWord ha
    unfold Int.ModEq
    omega
  · have hlow := Int.le_bmod (x := (toWord a).toNat * (toWord b).toNat) (m := 2 ^ 32) (by decide)
    have hhigh := Int.bmod_lt (x := (toWord a).toNat * (toWord b).toNat) (m := 2 ^ 32) (by decide)
    have hmod := Int.bmod_emod (x := (toWord a).toNat * (toWord b).toNat) (m := 2 ^ 32)
    rw [(wordProduct_spec a b).2, Int.cast_inj]
    unfold Int.ModEq
    omega
  · unfold wordProduct
    rw [Int32.mul_comm]
  · rw [leadingZeros, hzero]
    decide +kernel
  · have hpos : (toWord a).toNat ≠ 0 := fun h => hne (UInt32.toNat_inj.mp h)
    rw [(leadingZeros_eq a).2, if_neg hpos, Nat.cast_inj]
    exact leadingZeros_iff hpos (toWord a).toNat_lt

theorem apply_words_minus_one : toWord nan = 0 ∧ 4294967295 = ((toWord (-1.5)).toNat : ℤ) ∧
    toRat (imul.apply [-1.5, 3]) = (-3 : ℤ) ∧ clz32.apply [-0.0] = 32 ∧
      toRat (clz32.apply [4294967297]) = (31 : Nat) := by
  obtain ⟨-, hword, ⟨-, hproduct⟩, -⟩ := apply_words (-1.5) 3
  obtain ⟨-, -, -, -, hzero, -⟩ := apply_words (-0.0) 0
  obtain ⟨-, -, -, -, -, hclz⟩ := apply_words 4294967297 0
  have hone := (hclz (by decide +kernel)).2
  constructor
  · exact (apply_words nan 0).1 (by decide +kernel)
  constructor
  · exact (hword (by decide +kernel) _).mp ⟨by decide, by decide, by decide +kernel⟩
  constructor
  · exact (hproduct _).mp ⟨by decide, by decide, by decide +kernel⟩
  constructor
  · exact hzero (by decide +kernel)
  · exact (hone 31).mp ⟨by decide, by decide +kernel, by decide +kernel⟩

end Reckon.Math.Function
