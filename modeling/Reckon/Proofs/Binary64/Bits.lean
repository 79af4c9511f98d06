import Reckon.Binary64.Basic

/-! The bits of doubles: sign, exponent and fraction are fields of the word, a word that is no NaN
is the word of its double, and numbers that compare equal have the same word unless they are zeros. -/
namespace Reckon.Binary64
open Float.Model Float.Model.Format Float.Model.UnpackedFloat

section fields
variable (w : BitVec 64)

private theorem toNat_unpackMantissa : (@unpackMantissa binary64 w).toNat = w.toNat % 2 ^ 52 := by
  show (w.extractLsb 51 0).toNat = _
  rw [BitVec.extractLsb_toNat, Nat.shiftRight_zero]

private theorem toNat_unpackExponent :
    (@unpackExponent binary64 w).toNat = w.toNat / 2 ^ 52 % 2 ^ 11 := by
  show (w.extractLsb 62 52).toNat = _
  rw [BitVec.extractLsb_toNat, Nat.shiftRight_eq_div_pow]

private theorem toNat_unpackSign : (@unpackSign binary64 w).toNat = w.toNat / 2 ^ 63 := by
  have h := w.isLt
  show (w.extractLsb 63 63).toNat = _
  rw [BitVec.extractLsb_toNat, Nat.shiftRight_eq_div_pow]
  omega

end fields

private theorem toNat_append {m n : Nat} (x : BitVec m) (y : BitVec n) :
    (x ++ y).toNat = x.toNat * 2 ^ n + y.toNat := by
  rw [BitVec.toNat_append, ← Nat.shiftLeft_add_eq_or_of_lt y.isLt, Nat.shiftLeft_eq]

theorem toNat_packComponents (s : Sign) (e : BitVec 11) (f : BitVec 52) :
    (packComponents binary64 s e f).toNat =
      (s.toBitVec.toNat * 2 ^ 11 + e.toNat) * 2 ^ 52 + f.toNat := by
  rw [packComponents, toNat_append, toNat_append]

private theorem toBitVec_ofBitVec (b : BitVec 1) : (Sign.ofBitVec b).toBitVec = b := by
  revert b
  decide

/-- A word consists of its fields. -/
theorem packComponents_fields (w : BitVec 64) :
    packComponents binary64 (Sign.ofBitVec (@unpackSign binary64 w)) (@unpackExponent binary64 w)
      (@unpackMantissa binary64 w) = w := by
  have hw := w.isLt
  refine BitVec.eq_of_toNat_eq ?_
  rw [toNat_packComponents, toBitVec_ofBitVec, toNat_unpackSign, toNat_unpackExponent,
    toNat_unpackMantissa]
  omega

private theorem pack_subnormal (s : Sign) (f : BitVec 52) (h : 0 < f.toNat) :
    UnpackedFloat.pack binary64 (.finite s f.toNat (-1074) h) =
      packComponents binary64 s 0#11 f := by
  have hlog : f.toNat.log2 < 52 := (Nat.log2_lt (Nat.ne_of_gt h)).mpr f.isLt
  have hbits : ¬ f.toNat.log2 + 1 = binary64.mantissaBits := by
    show ¬ f.toNat.log2 + 1 = 53
    omega
  unfold UnpackedFloat.pack
  dsimp only
  rw [if_neg (by decide), if_neg hbits, BitVec.ofNat_toNat, BitVec.setWidth_eq]

private theorem pack_normal (s : Sign) (e : BitVec 11) (f : BitVec 52) (he : e.toNat ≠ 2047)
    (h : 0 < (1#1 ++ f).toNat) :
    UnpackedFloat.pack binary64 (.finite s (1#1 ++ f).toNat (e.toNat - 1075) h) =
      packComponents binary64 s e f := by
  have helt := e.isLt
  have hf := f.isLt
  have hvalue : (1#1 ++ f).toNat = 2 ^ 52 + f.toNat := toNat_append 1#1 f
  have hlog : (2 ^ 52 + f.toNat).log2 = 52 := by
    have hne : 2 ^ 52 + f.toNat ≠ 0 := by omega
    have hlow : 52 ≤ (2 ^ 52 + f.toNat).log2 := (Nat.le_log2 hne).mpr (Nat.le_add_right ..)
    have hhigh : (2 ^ 52 + f.toNat).log2 < 53 := (Nat.log2_lt hne).mpr (by omega)
    omega
  have hbits : (2 ^ 52 + f.toNat).log2 + 1 = binary64.mantissaBits := by
    rw [hlog]
    rfl
  have hfield : ((e.toNat - 1075 : Int) + binary64.exponentBias +
      binary64.mantissaBitsWithoutImplicit).toNat = e.toNat := by
    show ((e.toNat - 1075 : Int) + (1023 : Nat) + (52 : Nat)).toNat = e.toNat
    omega
  have hfraction : BitVec.ofNat 52 (2 ^ 52 + f.toNat) = f := by
    refine BitVec.eq_of_toNat_eq ?_
    rw [BitVec.toNat_ofNat]
    omega
  unfold UnpackedFloat.pack
  simp only [hvalue, hfield]
  rw [if_neg (by omega), if_pos hbits, hfraction, BitVec.ofNat_toNat, BitVec.setWidth_eq]

/-- Words that are no NaN are packed as they were unpacked. -/
theorem pack_unpack (w : BitVec 64)
    (h : @unpackExponent binary64 w = -1#_ → @unpackMantissa binary64 w = 0#_) :
    UnpackedFloat.pack binary64 (UnpackedFloat.unpack binary64 w) = w := by
  have hfields := packComponents_fields w
  unfold UnpackedFloat.unpack
  dsimp only
  by_cases he : @unpackExponent binary64 w = -1#11
  · rw [if_pos he, if_pos (h he)]
    rw [he, h he] at hfields
    exact hfields
  by_cases hzero : @unpackExponent binary64 w = 0#11
  · rw [if_neg he, if_pos hzero]
    rw [hzero] at hfields
    by_cases hf : @unpackMantissa binary64 w = 0#52
    · rw [dif_pos hf]
      rw [hf] at hfields
      exact hfields
    · rw [dif_neg hf, hzero]
      exact (pack_subnormal _ _ _).trans hfields
  · have he' : (@unpackExponent binary64 w).toNat ≠ 2047 := fun h => he (BitVec.eq_of_toNat_eq h)
    rw [if_neg he, if_neg hzero]
    exact (pack_normal _ _ _ he' _).trans hfields

/-- The word without its sign bit is not above that of infinity. -/
def IsNumber (w : Nat) : Prop := w % 2 ^ 63 ≤ 2047 * 2 ^ 52

theorem toBits_ofBits {w : UInt64} (h : IsNumber w.toNat) : (Float.ofBits w).toBits = w := by
  refine UInt64.toBitVec_inj.mp (pack_unpack w.toBitVec fun he => ?_)
  have hexponent := toNat_unpackExponent w.toBitVec
  have hfraction := toNat_unpackMantissa w.toBitVec
  rw [he] at hexponent
  have hexponent : 2047 = w.toNat / 2 ^ 52 % 2 ^ 11 := hexponent
  refine BitVec.eq_of_toNat_eq (hfraction.trans ?_)
  show w.toNat % 2 ^ 52 = 0
  unfold IsNumber at h
  omega

/-- A double is determined by its word. -/
theorem eq_of_toBits {x y : Float} (h : x.toBits = y.toBits) : x = y := by
  obtain ⟨v, hv⟩ := x
  obtain ⟨w, hw⟩ := y
  cases h
  rfl

def sign (x : Float) : Sign := if isNegative x then .negative else .positive

section unpack
variable {x : Float}

abbrev word (x : Float) : BitVec 64 := x.toModel.toBits.toBitVec

theorem ofBitVec_unpackSign (x : Float) :
    Sign.ofBitVec (@unpackSign binary64 (word x)) = sign x := by
  have hsign : _ = x.toBits.toNat / 2 ^ 63 := toNat_unpackSign (word x)
  unfold sign isNegative
  rw [← hsign]
  have hbit : ∀ b : BitVec 1, b = 0#1 ∨ b = 1#1 := by decide
  obtain h | h := hbit (@unpackSign binary64 (word x)) <;> rw [h] <;> rfl

theorem toNat_exponent (x : Float) :
    (@unpackExponent binary64 (word x)).toNat = biasedExponent x := toNat_unpackExponent (word x)

theorem toNat_fraction (x : Float) :
    (@unpackMantissa binary64 (word x)).toNat = fraction x := toNat_unpackMantissa (word x)

theorem unpackExponent_eq_iff {b : BitVec 11} :
    @unpackExponent binary64 (word x) = b ↔ biasedExponent x = b.toNat := by
  rw [← BitVec.toNat_inj, toNat_exponent]

theorem unpackMantissa_eq_zero_iff :
    @unpackMantissa binary64 (word x) = 0#52 ↔ fraction x = 0 := by
  rw [← BitVec.toNat_inj, toNat_fraction, BitVec.toNat_zero]

theorem unpack_infinite (he : biasedExponent x = 2047) (hf : fraction x = 0) :
    x.toModel.unpack = .infinity (sign x) := by
  unfold Float.Model.unpack UnpackedFloat.unpack
  dsimp only
  rw [if_pos (unpackExponent_eq_iff.mpr he), if_pos (unpackMantissa_eq_zero_iff.mpr hf),
    ofBitVec_unpackSign]

theorem unpack_nan (he : biasedExponent x = 2047) (hf : fraction x ≠ 0) :
    x.toModel.unpack = .notANumber := by
  unfold Float.Model.unpack UnpackedFloat.unpack
  dsimp only
  rw [if_pos (unpackExponent_eq_iff.mpr he), if_neg (mt unpackMantissa_eq_zero_iff.mp hf)]

theorem mantissa_eq_zero_iff : mantissa x = 0 ↔ biasedExponent x = 0 ∧ fraction x = 0 := by
  unfold mantissa
  split <;> omega

theorem unpack_zero (hm : mantissa x = 0) : x.toModel.unpack = .zero (sign x) := by
  obtain ⟨he, hf⟩ := mantissa_eq_zero_iff.mp hm
  have hfinite : ¬ @unpackExponent binary64 (word x) = -1#11 := by
    rw [unpackExponent_eq_iff, he]
    decide
  unfold Float.Model.unpack UnpackedFloat.unpack
  dsimp only
  rw [if_neg hfinite, if_pos (unpackExponent_eq_iff.mpr he),
    dif_pos (unpackMantissa_eq_zero_iff.mpr hf), ofBitVec_unpackSign]

theorem finite_congr {s t : Sign} {m n : Nat} {e f : Int} {hm : 0 < m} (hn : 0 < n) (hs : s = t)
    (hmantissa : m = n) (he : e = f) : UnpackedFloat.finite s m e hm = .finite t n f hn := by
  subst hs hmantissa he
  rfl

theorem unpack_finite (he : biasedExponent x ≠ 2047) (hm : 0 < mantissa x) :
    x.toModel.unpack = .finite (sign x) (mantissa x) (exponent x) hm := by
  have hfinite : ¬ @unpackExponent binary64 (word x) = -1#11 := by
    rwa [unpackExponent_eq_iff]
  unfold Float.Model.unpack UnpackedFloat.unpack
  dsimp only
  rw [if_neg hfinite]
  by_cases hzero : biasedExponent x = 0
  · have hmantissa : mantissa x = fraction x := if_pos hzero
    have hf : ¬ @unpackMantissa binary64 (word x) = 0#52 := by
      rw [unpackMantissa_eq_zero_iff]
      omega
    have hexponent : @unpackExponent binary64 (word x) = 0#11 := unpackExponent_eq_iff.mpr hzero
    rw [if_pos hexponent, dif_neg hf]
    refine finite_congr hm (ofBitVec_unpackSign x) ((toNat_fraction x).trans hmantissa.symm) ?_
    rw [hexponent, exponent, hzero]
    rfl
  · have hmantissa : mantissa x = 2 ^ 52 + fraction x := if_neg hzero
    have hvalue : (1#1 ++ @unpackMantissa binary64 (word x)).toNat = mantissa x := by
      rw [hmantissa, ← toNat_fraction]
      exact toNat_append 1#1 _
    have hmax : max (biasedExponent x) 1 = biasedExponent x := by omega
    rw [if_neg (mt unpackExponent_eq_iff.mp hzero)]
    refine finite_congr hm (ofBitVec_unpackSign x) hvalue ?_
    rw [toNat_exponent, exponent, hmax]
    rfl

/-- Every double is packed as it was unpacked, as there is one NaN only. -/
theorem ofBits_toBits (x : Float) : Float.ofBits x.toBits = x := by
  refine eq_of_toBits (UInt64.toBitVec_inj.mp ?_)
  show UnpackedFloat.pack binary64 (UnpackedFloat.unpack binary64 (word x)) = word x
  by_cases hnan : @unpackExponent binary64 (word x) = -1#11 ∧
      @unpackMantissa binary64 (word x) ≠ 0#52
  · have hword : word x = packedNaN binary64 := x.toModel.valid.eq_packedNaN hnan.1 hnan.2
    rw [hword]
    decide
  · exact pack_unpack _ fun he => Decidable.byContradiction fun hf => hnan ⟨he, hf⟩

theorem eq_of_unpack {x y : Float} (h : x.toModel.unpack = y.toModel.unpack) : x = y := by
  rw [← ofBits_toBits x, ← ofBits_toBits y]
  exact congrArg (fun u => Float.ofModel (Float.Model.pack u)) h

/-- What a double is packed from. -/
theorem unpack_cases (x : Float) :
    (biasedExponent x = 2047 ∧ fraction x = 0 ∧ x.toModel.unpack = .infinity (sign x)) ∨
    (biasedExponent x = 2047 ∧ fraction x ≠ 0 ∧ x.toModel.unpack = .notANumber) ∨
    (mantissa x = 0 ∧ x.toModel.unpack = .zero (sign x)) ∨
    (biasedExponent x ≠ 2047 ∧ ∃ hm : 0 < mantissa x,
      x.toModel.unpack = .finite (sign x) (mantissa x) (exponent x) hm) := by
  by_cases he : biasedExponent x = 2047
  · by_cases hf : fraction x = 0
    · exact .inl ⟨he, hf, unpack_infinite he hf⟩
    · exact .inr (.inl ⟨he, hf, unpack_nan he hf⟩)
  · obtain hm | hm := Nat.eq_zero_or_pos (mantissa x)
    · exact .inr (.inr (.inl ⟨hm, unpack_zero hm⟩))
    · exact .inr (.inr (.inr ⟨he, hm, unpack_finite he hm⟩))

theorem isFinite_iff : x.isFinite = true ↔ biasedExponent x ≠ 2047 := by
  show x.toModel.unpack.isFinite = true ↔ _
  obtain ⟨he, -, h⟩ | ⟨he, -, h⟩ | ⟨hm, h⟩ | ⟨he, hm, h⟩ := unpack_cases x <;> rw [h]
  · exact iff_of_false nofun fun hne => hne he
  · exact iff_of_false nofun fun hne => hne he
  · have he := (mantissa_eq_zero_iff.mp hm).1
    exact iff_of_true rfl (by omega)
  · exact iff_of_true rfl he

theorem isNaN_iff : x.isNaN = true ↔ biasedExponent x = 2047 ∧ fraction x ≠ 0 := by
  show x.toModel.unpack.isNaN = true ↔ _
  obtain ⟨he, hf, h⟩ | ⟨he, hf, h⟩ | ⟨hm, h⟩ | ⟨he, hm, h⟩ := unpack_cases x <;> rw [h]
  · exact iff_of_false nofun fun hnan => hnan.2 hf
  · exact iff_of_true rfl ⟨he, hf⟩
  · have he := (mantissa_eq_zero_iff.mp hm).1
    exact iff_of_false nofun fun hnan => by omega
  · exact iff_of_false nofun fun hnan => he hnan.1

theorem isInf_iff : x.isInf = true ↔ biasedExponent x = 2047 ∧ fraction x = 0 := by
  show x.toModel.unpack.isInf = true ↔ _
  obtain ⟨he, hf, h⟩ | ⟨he, hf, h⟩ | ⟨hm, h⟩ | ⟨he, hm, h⟩ := unpack_cases x <;> rw [h]
  · exact iff_of_true rfl ⟨he, hf⟩
  · exact iff_of_false nofun fun hinf => hf hinf.2
  · have he := (mantissa_eq_zero_iff.mp hm).1
    exact iff_of_false nofun fun hinf => by omega
  · exact iff_of_false nofun fun hinf => he hinf.1

theorem isNaN_eq_false (h : x.isFinite = true) : x.isNaN = false := by
  rw [Bool.eq_false_iff]
  exact fun hnan => isFinite_iff.mp h (isNaN_iff.mp hnan).1

theorem isInf_of_not_isNaN (h : x.isFinite = false) (hnan : ¬ x.isNaN = true) :
    x.isInf = true := by
  have he : biasedExponent x = 2047 :=
    Decidable.byContradiction fun he => by simp [isFinite_iff.mpr he] at h
  have hf : fraction x = 0 :=
    Decidable.byContradiction fun hf => hnan (isNaN_iff.mpr ⟨he, hf⟩)
  exact isInf_iff.mpr ⟨he, hf⟩

theorem beq_iff {y : Float} :
    (x == y) = true ↔ x.toModel.unpack.compare y.toModel.unpack = some .eq := by
  show (x.toModel.unpack.compare y.toModel.unpack == some .eq) = true ↔ _
  exact beq_iff_eq

theorem compare_zero_iff {u : UnpackedFloat} {s : Sign} :
    u.compare (.zero s) = some .eq ↔ ∃ r, u = .zero r := by
  cases u with
  | notANumber => exact iff_of_false nofun nofun
  | infinity r => cases r <;> exact iff_of_false nofun nofun
  | zero r => exact iff_of_true rfl ⟨r, rfl⟩
  | finite r => cases r <;> exact iff_of_false nofun nofun

theorem beq_zero_iff : (x == 0) = true ↔ mantissa x = 0 := by
  have hzero : (0 : Float).toModel.unpack = .zero .positive := rfl
  have hne (he : biasedExponent x = 2047) : mantissa x ≠ 0 := fun hm => by
    have he' := (mantissa_eq_zero_iff.mp hm).1
    omega
  rw [beq_iff, hzero, compare_zero_iff]
  obtain ⟨he, -, h⟩ | ⟨he, -, h⟩ | ⟨hm, h⟩ | ⟨-, hm, h⟩ := unpack_cases x <;> rw [h]
  · exact iff_of_false nofun (hne he)
  · exact iff_of_false nofun (hne he)
  · exact iff_of_true ⟨sign x, rfl⟩ hm
  · exact iff_of_false nofun (Nat.ne_of_gt hm)

theorem eq_of_compare {u : UnpackedFloat} {s : Sign} {m : Nat} {e : Int} {hm : 0 < m}
    (h : u.compare (.finite s m e hm) = some .eq) : u = .finite s m e hm := by
  cases u with
  | notANumber => cases h
  | infinity r => cases r <;> cases s <;> cases h
  | zero r => cases s <;> cases h
  | finite r n f =>
    have hparts (hcompare : (compare f e).then (compare n m) = .eq) : n = m ∧ f = e := by
      rw [Ordering.then_eq_eq] at hcompare
      exact ⟨Nat.compare_eq_eq.mp hcompare.2, Std.LawfulEqCmp.eq_of_compare hcompare.1⟩
    cases r <;> cases s
    · have hparts := hparts (Ordering.swap_eq_eq.mp (Option.some.inj h))
      exact finite_congr hm rfl hparts.1 hparts.2
    · cases h
    · cases h
    · have hparts := hparts (Option.some.inj h)
      exact finite_congr hm rfl hparts.1 hparts.2

/-- Numbers that compare equal are the same, but for zeros. -/
theorem eq_of_beq {y : Float} (h : (x == y) = true) (he : biasedExponent y ≠ 2047)
    (hm : 0 < mantissa y) : x = y := by
  rw [beq_iff, unpack_finite he hm] at h
  exact eq_of_unpack ((eq_of_compare h).trans (unpack_finite he hm).symm)

theorem eq_of_compare_infinity {u : UnpackedFloat} {s : Sign}
    (h : u.compare (.infinity s) = some .eq) : u = .infinity s := by
  cases u with
  | notANumber => cases h
  | infinity r => cases r <;> cases s <;> first | rfl | cases h
  | zero r => cases s <;> cases h
  | finite r => cases r <;> cases s <;> cases h

theorem compare_notANumber (u : UnpackedFloat) : u.compare .notANumber = none := by
  cases u with
  | infinity r | finite r => cases r <;> rfl
  | _ => rfl

theorem compare_self {u : UnpackedFloat} (h : u.isNaN = false) : u.compare u = some .eq := by
  cases u with
  | notANumber => cases h
  | infinity r => cases r <;> rfl
  | zero r => rfl
  | finite r m e =>
    have hparts : (compare e e).then (compare m m) = .eq := by simp
    cases r
    · exact congrArg some (Ordering.swap_eq_eq.mpr hparts)
    · exact congrArg some hparts

theorem beq_self (h : x.isNaN = false) : (x == x) = true := beq_iff.mpr (compare_self h)

/-- Doubles compare equal exactly if they are the same number, or both zeros. -/
theorem beq_iff_eq_or_zeros {y : Float} :
    (x == y) = true ↔ x = y ∧ x.isNaN = false ∨ (x == 0) = true ∧ (y == 0) = true := by
  constructor
  · intro h
    obtain ⟨-, hf, hy⟩ | ⟨-, -, hy⟩ | ⟨hm, hy⟩ | ⟨he, hm, -⟩ := unpack_cases y
    · rw [beq_iff, hy] at h
      have heq : x = y := eq_of_unpack ((eq_of_compare_infinity h).trans hy.symm)
      have hnan : x.isNaN = false := by
        rw [heq, Bool.eq_false_iff]
        exact fun hnan => (isNaN_iff.mp hnan).2 hf
      exact .inl ⟨heq, hnan⟩
    · rw [beq_iff, hy, compare_notANumber] at h
      cases h
    · rw [beq_iff, hy, compare_zero_iff] at h
      have hx : (x == 0) = true := beq_iff.mpr (compare_zero_iff.mpr h)
      exact .inr ⟨hx, beq_zero_iff.mpr hm⟩
    · have heq : x = y := eq_of_beq h he hm
      exact .inl ⟨heq, isNaN_eq_false (isFinite_iff.mpr (heq ▸ he))⟩
  · rintro (⟨rfl, h⟩ | ⟨hx, hy⟩)
    · exact beq_self h
    · rw [beq_iff, unpack_zero (beq_zero_iff.mp hx), unpack_zero (beq_zero_iff.mp hy)]
      rfl

/-- There is one NaN only. -/
theorem eq_of_isNaN {y : Float} (hx : x.isNaN = true) (hy : y.isNaN = true) : x = y := by
  obtain ⟨hxe, hxf⟩ := isNaN_iff.mp hx
  obtain ⟨hye, hyf⟩ := isNaN_iff.mp hy
  exact eq_of_unpack ((unpack_nan hxe hxf).trans (unpack_nan hye hyf).symm)

end unpack

section sign
variable {x : Float}

/-- The magnitude of a word consists of its exponent and its fraction. -/
theorem toNat_toBits (x : Float) :
    x.toBits.toNat % 2 ^ 63 = biasedExponent x * 2 ^ 52 + fraction x := by
  unfold biasedExponent fraction
  omega

theorem biasedExponent_le (x : Float) : biasedExponent x ≤ 2047 := by
  unfold biasedExponent
  omega

theorem isNumber_toBits (h : x.isNaN = false) : IsNumber x.toBits.toNat := by
  have hnan : ¬ (biasedExponent x = 2047 ∧ fraction x ≠ 0) := by
    rw [← isNaN_iff, h]
    decide
  have hle := biasedExponent_le x
  have hlt : fraction x < 2 ^ 52 := Nat.mod_lt _ (by decide)
  unfold IsNumber
  rw [toNat_toBits]
  omega

/-- A word put together from a magnitude and a sign. -/
theorem toNat_ofBits {w : Nat} (h : w ≤ 2047 * 2 ^ 52) (negative : Bool) :
    (Float.ofBits (UInt64.ofNat (w + if negative then 2 ^ 63 else 0))).toBits.toNat =
      w + if negative then 2 ^ 63 else 0 := by
  have hvalue : (UInt64.ofNat (w + if negative then 2 ^ 63 else 0)).toNat =
      w + if negative then 2 ^ 63 else 0 := by
    refine UInt64.toNat_ofNat_of_lt ?_
    rw [UInt64.size]
    split <;> omega
  rw [toBits_ofBits, hvalue]
  rw [IsNumber, hvalue]
  split <;> omega

theorem toNat_withSign (h : x.isNaN = false) (negative : Bool) :
    (withSign negative x).toBits.toNat =
      x.toBits.toNat % 2 ^ 63 + if negative then 2 ^ 63 else 0 :=
  toNat_ofBits (isNumber_toBits h) negative

theorem biasedExponent_withSign (h : x.isNaN = false) (negative : Bool) :
    biasedExponent (withSign negative x) = biasedExponent x := by
  unfold biasedExponent
  rw [toNat_withSign h]
  split <;> omega

theorem fraction_withSign (h : x.isNaN = false) (negative : Bool) :
    fraction (withSign negative x) = fraction x := by
  unfold fraction
  rw [toNat_withSign h]
  split <;> omega

theorem isNaN_withSign (h : x.isNaN = false) (negative : Bool) :
    (withSign negative x).isNaN = false := by
  rw [Bool.eq_false_iff, Ne, isNaN_iff, biasedExponent_withSign h, fraction_withSign h,
    ← isNaN_iff, h]
  decide

theorem isNegative_withSign (h : x.isNaN = false) (negative : Bool) :
    isNegative (withSign negative x) = negative := by
  have hsign : (x.toBits.toNat % 2 ^ 63 + if negative then 2 ^ 63 else 0) / 2 ^ 63 =
      if negative then 1 else 0 := by
    split <;> omega
  rw [isNegative, toNat_withSign h, hsign]
  cases negative <;> rfl

theorem mantissa_withSign (h : x.isNaN = false) (negative : Bool) :
    mantissa (withSign negative x) = mantissa x := by
  unfold mantissa
  rw [biasedExponent_withSign h, fraction_withSign h]

theorem exponent_withSign (h : x.isNaN = false) (negative : Bool) :
    exponent (withSign negative x) = exponent x := by
  unfold exponent
  rw [biasedExponent_withSign h]

/-- A number is its magnitude with its sign. -/
theorem withSign_isNegative (h : x.isNaN = false) : withSign (isNegative x) x = x := by
  refine eq_of_toBits (UInt64.toNat_inj.mp ?_)
  have hlt := x.toBits.toNat_lt
  rw [toNat_withSign h, isNegative]
  obtain hsign | hsign : x.toBits.toNat / 2 ^ 63 = 0 ∨ x.toBits.toNat / 2 ^ 63 = 1 := by omega
  · rw [hsign, if_neg (by decide)]
    omega
  · rw [hsign, if_pos (by decide)]
    omega

theorem withSign_withSign (h : x.isNaN = false) (a b : Bool) :
    withSign a (withSign b x) = withSign a x := by
  have hmagnitude : (withSign b x).toBits.toNat % 2 ^ 63 = x.toBits.toNat % 2 ^ 63 := by
    rw [toNat_withSign h]
    split <;> omega
  rw [withSign, hmagnitude]
  rfl

theorem sign_withSign_not (h : x.isNaN = false) : sign (withSign (!isNegative x) x) = -sign x := by
  unfold sign
  rw [isNegative_withSign h]
  cases isNegative x <;> rfl

theorem neg_unpack (h : x.isNaN = false) :
    x.toModel.unpack.neg = (withSign (!isNegative x) x).toModel.unpack := by
  have he := biasedExponent_withSign h (!isNegative x)
  have hf := fraction_withSign h (!isNegative x)
  have hm := mantissa_withSign h (!isNegative x)
  obtain ⟨hinf, hzero, hx⟩ | ⟨hinf, hnan, -⟩ | ⟨hzero, hx⟩ | ⟨hfinite, hpos, hx⟩ := unpack_cases x
  · rw [hx, unpack_infinite (he.trans hinf) (hf.trans hzero), sign_withSign_not h]
    rfl
  · rw [isNaN_iff.mpr ⟨hinf, hnan⟩] at h
    cases h
  · rw [hx, unpack_zero (hm.trans hzero), sign_withSign_not h]
    rfl
  · rw [hx, unpack_finite (he ▸ hfinite) (hm ▸ hpos)]
    exact finite_congr _ (sign_withSign_not h).symm hm.symm (exponent_withSign h _).symm

/-- The negative of a number has the other sign and the same magnitude. -/
theorem neg_eq_withSign (h : x.isNaN = false) : -x = withSign (!isNegative x) x := by
  show Float.ofModel (Float.Model.pack x.toModel.unpack.neg) = _
  rw [neg_unpack h]
  exact ofBits_toBits _

end sign

end Reckon.Binary64
