import Mathlib.Algebra.Order.Ring.Int
import Mathlib.Order.BoundedOrder.Basic
import Reckon.Proofs.Binary64.Bits

/-! The order of doubles. Comparisons of numbers are comparisons of their places on a line, where
the zeros share a place. With the sign of the zeros as a tie-break the numbers are ordered linearly. -/
namespace Reckon.Binary64
open Float.Model Float.Model.UnpackedFloat

def magnitudeBits (x : Float) : Nat := x.toBits.toNat % 2 ^ 63

/-- Where a number stands, counted in doubles from the zeros. -/
def place (x : Float) : Int := if isNegative x then -magnitudeBits x else magnitudeBits x

section compare
variable {x y : Float}

theorem place_eq_apply (x : Float) : place x = (sign x).apply (magnitudeBits x) := by
  unfold place sign
  split <;> rfl

theorem magnitudeBits_finite (he : biasedExponent x ≠ 2047) (hm : 0 < mantissa x) :
    0 < magnitudeBits x ∧ magnitudeBits x < 2047 * 2 ^ 52 := by
  have hle := biasedExponent_le x
  have hf : fraction x < 2 ^ 52 := Nat.mod_lt _ (by decide)
  rw [magnitudeBits, toNat_toBits]
  unfold mantissa at hm
  split at hm <;> omega

/-- What a number is packed from, and where its magnitude stands. -/
theorem unpack_number (h : x.isNaN = false) :
    (magnitudeBits x = 2047 * 2 ^ 52 ∧ x.toModel.unpack = .infinity (sign x)) ∨
    (magnitudeBits x = 0 ∧ x.toModel.unpack = .zero (sign x)) ∨
    (0 < magnitudeBits x ∧ magnitudeBits x < 2047 * 2 ^ 52 ∧ ∃ hm : 0 < mantissa x,
      x.toModel.unpack = .finite (sign x) (mantissa x) (exponent x) hm) := by
  obtain ⟨he, hf, hx⟩ | ⟨he, hf, -⟩ | ⟨hm, hx⟩ | ⟨he, hm, hx⟩ := unpack_cases x
  · have hbits : magnitudeBits x = 2047 * 2 ^ 52 := by rw [magnitudeBits, toNat_toBits, he, hf]
    exact .inl ⟨hbits, hx⟩
  · rw [isNaN_iff.mpr ⟨he, hf⟩] at h
    cases h
  · obtain ⟨he, hf⟩ := mantissa_eq_zero_iff.mp hm
    have hbits : magnitudeBits x = 0 := by rw [magnitudeBits, toNat_toBits, he, hf]
    exact .inr (.inl ⟨hbits, hx⟩)
  · obtain ⟨hpos, hlt⟩ := magnitudeBits_finite he hm
    exact .inr (.inr ⟨hpos, hlt, hm, hx⟩)

/-- The shorter word has the smaller exponent, or else the smaller mantissa. -/
theorem parts_lt (h : magnitudeBits x < magnitudeBits y) :
    exponent x < exponent y ∨ exponent x = exponent y ∧ mantissa x < mantissa y := by
  have hx : fraction x < 2 ^ 52 := Nat.mod_lt _ (by decide)
  have hy : fraction y < 2 ^ 52 := Nat.mod_lt _ (by decide)
  rw [magnitudeBits, magnitudeBits, toNat_toBits, toNat_toBits] at h
  unfold exponent mantissa
  split <;> split <;> omega

theorem parts_eq (h : magnitudeBits x = magnitudeBits y) :
    exponent x = exponent y ∧ mantissa x = mantissa y := by
  have hx : fraction x < 2 ^ 52 := Nat.mod_lt _ (by decide)
  have hy : fraction y < 2 ^ 52 := Nat.mod_lt _ (by decide)
  rw [magnitudeBits, magnitudeBits, toNat_toBits, toNat_toBits] at h
  unfold exponent mantissa
  constructor
  · omega
  · split <;> split <;> omega

/-- Exponents and mantissas are compared like the words that they make up. -/
theorem compare_parts (x y : Float) :
    (compare (exponent x) (exponent y)).then (compare (mantissa x) (mantissa y)) =
      compare (magnitudeBits x) (magnitudeBits y) := by
  obtain h | h | h := Nat.lt_trichotomy (magnitudeBits x) (magnitudeBits y)
  · rw [Nat.compare_eq_lt.mpr h, Ordering.then_eq_lt, Int.compare_eq_lt, Int.compare_eq_eq,
      Nat.compare_eq_lt]
    exact parts_lt h
  · rw [Nat.compare_eq_eq.mpr h, Ordering.then_eq_eq, Int.compare_eq_eq, Nat.compare_eq_eq]
    exact parts_eq h
  · rw [Nat.compare_eq_gt.mpr h, Ordering.then_eq_gt, Int.compare_eq_gt, Int.compare_eq_eq,
      Nat.compare_eq_gt]
    exact (parts_lt h).imp_right (.imp_left Eq.symm)

theorem some_eq_compare {o : Ordering} {i j : Int} (h : o.Compares i j) :
    some o = some (compare i j) := congrArg some ((compare_iff i j).mpr h).symm

private theorem compares_natCast {o : Ordering} {m n : Nat} (h : o.Compares m n) :
    o.Compares (m : Int) n := by
  cases o <;> simp only [Ordering.Compares] at h ⊢ <;> omega

private theorem compares_neg {o : Ordering} {m n : Nat} (h : o.Compares m n) :
    o.swap.Compares (-m : Int) (-n) := by
  cases o <;> simp only [Ordering.Compares, Ordering.swap] at h ⊢ <;> omega

/-- The longer word is the greater magnitude, and a minus turns the order round. -/
theorem compare_finite (hxm : 0 < mantissa x) (hym : 0 < mantissa y) (hxpos : 0 < magnitudeBits x)
    (hypos : 0 < magnitudeBits y) :
    (finite (sign x) (mantissa x) (exponent x) hxm).compare
        (.finite (sign y) (mantissa y) (exponent y) hym) =
      some (compare ((sign x).apply (magnitudeBits x)) ((sign y).apply (magnitudeBits y))) := by
  have hbits := (compare_iff (magnitudeBits x) (magnitudeBits y)).mp rfl
  rw [← compare_parts] at hbits
  cases sign x <;> cases sign y <;> apply some_eq_compare
  · exact compares_neg hbits
  · show (-magnitudeBits x : Int) < magnitudeBits y
    omega
  · show (-magnitudeBits y : Int) < magnitudeBits x
    omega
  · exact compares_natCast hbits

/-- Numbers are compared by their places. -/
theorem compare_unpack (hx : x.isNaN = false) (hy : y.isNaN = false) :
    x.toModel.unpack.compare y.toModel.unpack = some (compare (place x) (place y)) := by
  rw [place_eq_apply, place_eq_apply]
  obtain ⟨hxbits, hxu⟩ | ⟨hxbits, hxu⟩ | ⟨hxpos, hxlt, hxm, hxu⟩ := unpack_number hx <;>
    obtain ⟨hybits, hyu⟩ | ⟨hybits, hyu⟩ | ⟨hypos, hylt, hym, hyu⟩ := unpack_number hy <;>
    rw [hxu, hyu]
  case inr.inr.inr.inr => exact compare_finite hxm hym hxpos hypos
  case inl.inl =>
    rw [hxbits, hybits]
    cases sign x <;> cases sign y <;> decide
  -- zeros, numbers and infinities lie apart
  all_goals
    cases sign x <;> cases sign y <;> apply some_eq_compare <;>
      simp only [Ordering.Compares, Sign.apply] <;> omega

theorem lt_iff_place (hx : x.isNaN = false) (hy : y.isNaN = false) :
    x < y ↔ place x < place y := by
  have hlt : x < y ↔ x.toModel.unpack.compare y.toModel.unpack = some .lt := by
    show decide ((x.toModel.unpack.compare y.toModel.unpack == some .lt) = true) = true ↔ _
    rw [decide_eq_true_iff, beq_iff_eq]
  rw [hlt, compare_unpack hx hy, Option.some_inj, Int.compare_eq_lt]

theorem le_iff_place (hx : x.isNaN = false) (hy : y.isNaN = false) :
    x ≤ y ↔ place x ≤ place y := by
  have hle : x ≤ y ↔ (x.toModel.unpack.compare y.toModel.unpack).any (·.isLE) = true := by
    show decide ((x.toModel.unpack.compare y.toModel.unpack).any (·.isLE) = true) = true ↔ _
    rw [decide_eq_true_iff]
  rw [hle, compare_unpack hx hy, Option.any_some, Int.isLE_compare]

theorem beq_iff_place (hx : x.isNaN = false) (hy : y.isNaN = false) :
    (x == y) = true ↔ place x = place y := by
  rw [beq_iff, compare_unpack hx hy, Option.some_inj, Int.compare_eq_eq]

/-- A number is determined by its sign and its magnitude. -/
theorem eq_of_magnitudeBits (hs : isNegative x = isNegative y)
    (hbits : magnitudeBits x = magnitudeBits y) : x = y := by
  have hx := x.toBits.toNat_lt
  have hy := y.toBits.toNat_lt
  refine eq_of_toBits (UInt64.toNat_inj.mp ?_)
  unfold isNegative at hs
  rw [Bool.beq_eq_decide_eq, Bool.beq_eq_decide_eq, decide_eq_decide] at hs
  unfold magnitudeBits at hbits
  omega

end compare

structure Number where
  value : Float
  isNaN : value.isNaN = false

namespace Number

/-- The smaller value comes first, and of two zeros the negative one. -/
instance : LE Number where
  le a b := a.value < b.value ∨
    (a.value == b.value) = true ∧ (isNegative b.value = true → isNegative a.value = true)

def rank (a : Number) : Int := if isNegative a.value then place a.value - 1 else place a.value

theorem rank_injective : Function.Injective rank := by
  intro a b h
  have hsign : isNegative a.value = isNegative b.value := by
    unfold rank place at h
    cases ha : isNegative a.value <;> cases hb : isNegative b.value <;>
      simp only [ha, hb, if_true, if_false, Bool.false_eq_true] at h ⊢ <;> omega
  have hbits : magnitudeBits a.value = magnitudeBits b.value := by
    unfold rank place at h
    rw [hsign] at h
    split at h <;> omega
  obtain ⟨x, hx⟩ := a
  obtain ⟨y, hy⟩ := b
  obtain rfl : x = y := eq_of_magnitudeBits hsign hbits
  rfl

theorem le_iff_rank {a b : Number} : a ≤ b ↔ a.rank ≤ b.rank := by
  show a.value < b.value ∨ (a.value == b.value) = true ∧ _ ↔ _
  rw [lt_iff_place a.isNaN b.isNaN, beq_iff_place a.isNaN b.isNaN]
  unfold rank place
  cases isNegative a.value <;> cases isNegative b.value <;> simp <;> omega

instance : LinearOrder Number where
  le_refl a := le_iff_rank.mpr (Int.le_refl _)
  le_trans a b c hab hbc :=
    le_iff_rank.mpr (Int.le_trans (le_iff_rank.mp hab) (le_iff_rank.mp hbc))
  le_antisymm a b hab hba :=
    rank_injective (Int.le_antisymm (le_iff_rank.mp hab) (le_iff_rank.mp hba))
  le_total a b := (Int.le_total a.rank b.rank).imp le_iff_rank.mpr le_iff_rank.mpr
  toDecidableLE a b := decidable_of_iff (a.rank ≤ b.rank) le_iff_rank.symm

theorem rank_bounds (a : Number) : -(2047 * 2 ^ 52) - 1 ≤ a.rank ∧ a.rank ≤ 2047 * 2 ^ 52 := by
  have hbits : magnitudeBits a.value ≤ 2047 * 2 ^ 52 := isNumber_toBits a.isNaN
  unfold rank place
  split <;> omega

/-- The numbers lie between the infinities. -/
instance : BoundedOrder Number where
  bot := ⟨-infinity, by decide +kernel⟩
  bot_le a := by
    have hrank : rank ⟨-infinity, by decide +kernel⟩ = -(2047 * 2 ^ 52) - 1 := by decide +kernel
    exact le_iff_rank.mpr (hrank ▸ a.rank_bounds.1)
  top := ⟨infinity, by decide +kernel⟩
  le_top a := by
    have hrank : rank ⟨infinity, by decide +kernel⟩ = 2047 * 2 ^ 52 := by decide +kernel
    exact le_iff_rank.mpr (hrank ▸ a.rank_bounds.2)

example : (⟨-0.0, by decide +kernel⟩ : Number) < ⟨0, by decide +kernel⟩ := by decide +kernel

end Number

end Reckon.Binary64
