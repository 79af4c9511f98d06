import Reckon.Decimal.Layout
import Reckon.Proofs.Decimal.Shortest
import Reckon.Proofs.Digits

/-! Plain decimal texts: their digits and their point make up a numeral, which is read as the number
that was written. -/
namespace Reckon.Decimal
open Binary64 Lexeme

def pointedChars (whole fraction : List Char) : List Char :=
  whole ++ if fraction = [] then [] else '.' :: fraction

/-- How plain decimal places are composed of digits. -/
structure Positional (s : Scaled) (whole fraction : List Char) : Prop where
  chars : (positional s).toList = pointedChars whole fraction
  isWhole : Whole whole
  isDigits : Digits fraction
  value : s.ratio = (digitsValue (whole ++ fraction), 10 ^ fraction.length)
  length : whole.length + fraction.length ≤ s.digits.repr.length + s.exponent.natAbs + 1

section positional
variable {s : Scaled}

/-- Zeros stand behind the digits of an integer. -/
theorem positional_integer (hs : 0 < s.digits) (he : 0 ≤ s.exponent) :
    Positional s (s.digits.repr.toList ++ List.replicate s.exponent.toNat '0') [] := by
  have hdigits := (digits_repr s.digits).append (digits_zeros s.exponent.toNat)
  refine ⟨?_, ?_, nofun, ?_, ?_⟩
  · simp [positional, he, pointedChars]
  · obtain ⟨d, ds, hrepr, hd⟩ := exists_cons_repr hs
    rw [hrepr] at hdigits ⊢
    exact hdigits.whole hd
  · rw [Scaled.ratio, if_pos he, List.append_nil, digitsValue_append, digitsValue_repr,
      digitsValue_zeros, List.length_replicate, Nat.mul_comm]
    rfl
  · rw [List.length_append, List.length_replicate, String.length_toList, List.length_nil]
    omega

/-- The point stands between the digits. -/
theorem positional_inside (hs : 0 < s.digits) {k after : Nat} (hk : 0 < k) (hafter : 0 < after)
    (he : s.exponent = -after) (hlength : s.digits.repr.length = k + after) :
    Positional s (s.digits.repr.toList.take k) (s.digits.repr.toList.drop k) := by
  have hdigits := digits_repr s.digits
  have hexponent : (-s.exponent).toNat = after := by omega
  have hdrop : (s.digits.repr.toList.drop k).length = after := by
    rw [List.length_drop, String.length_toList]
    omega
  refine ⟨?_, ?_, fun c hc => hdigits c (List.mem_of_mem_drop hc), ?_, ?_⟩
  · have hne : s.digits.repr.toList.drop k ≠ [] := by
      rw [← List.length_pos_iff, hdrop]
      exact hafter
    have hfront : s.digits.repr.length - after = k := by omega
    unfold positional pointedChars
    dsimp only
    rw [hexponent, hfront, if_neg (by omega), if_pos (by omega), if_neg hne]
    simp
  · obtain ⟨d, ds, hrepr, hd⟩ := exists_cons_repr hs
    obtain ⟨k, rfl⟩ := Nat.exists_eq_add_one_of_ne_zero (Nat.ne_of_gt hk)
    have htake : Digits (s.digits.repr.toList.take (k + 1)) :=
      fun c hc => hdigits c (List.mem_of_mem_take hc)
    rw [hrepr, List.take_succ_cons] at htake ⊢
    exact htake.whole hd
  · rw [Scaled.ratio, if_neg (by omega), List.take_append_drop, digitsValue_repr, hdrop, hexponent]
  · rw [hdrop, List.length_take]
    omega

/-- Zeros stand between the point and the digits. -/
theorem positional_fraction {zeros after : Nat} (hafter : 0 < after) (he : s.exponent = -after)
    (hlength : zeros + s.digits.repr.length = after) :
    Positional s ['0'] (List.replicate zeros '0' ++ s.digits.repr.toList) := by
  have hexponent : (-s.exponent).toNat = after := by omega
  have hfraction : (List.replicate zeros '0' ++ s.digits.repr.toList).length = after := by
    rw [List.length_append, List.length_replicate, String.length_toList, hlength]
  refine ⟨?_, .zero, (digits_zeros _).append (digits_repr _), ?_, ?_⟩
  · have hne : List.replicate zeros '0' ++ s.digits.repr.toList ≠ [] := by
      rw [← List.length_pos_iff, hfraction]
      exact hafter
    have hzeros : after - s.digits.repr.length = zeros := by omega
    unfold positional pointedChars
    dsimp only
    rw [hexponent, hzeros, if_neg (by omega), if_neg (by omega), if_neg hne]
    simp
  · rw [Scaled.ratio, if_neg (by omega), hfraction, hexponent, digitsValue_append,
      digitsValue_append, digitsValue_repr, digitsValue_zeros]
    simp [digitsValue, digitValue]
  · rw [hfraction, List.length_singleton]
    omega

theorem exists_positional (hs : 0 < s.digits) : ∃ whole fraction, Positional s whole fraction := by
  by_cases he : 0 ≤ s.exponent
  · exact ⟨_, _, positional_integer hs he⟩
  have hafter : s.exponent = -(-s.exponent).toNat := by omega
  have hpos : 0 < (-s.exponent).toNat := by omega
  obtain hlt | hle := Nat.lt_or_ge (-s.exponent).toNat s.digits.repr.length
  · exact ⟨_, _, positional_inside hs (Nat.sub_pos_of_lt hlt) hpos hafter (by omega)⟩
  · exact ⟨_, _, positional_fraction hpos hafter (Nat.sub_add_cancel hle)⟩

end positional

/-- A numeral without an exponent. -/
theorem toFloat_eq_nearest {whole fraction : List Char}
    (h : digitsValue (whole ++ fraction) ≠ 0) (negative : Bool) :
    (Numeral.mk whole fraction 0).toFloat negative =
      nearest negative (digitsValue (whole ++ fraction)) (10 ^ fraction.length) := by
  unfold Numeral.toFloat
  dsimp only
  have hreach : Numeral.reach = 400 := rfl
  rw [if_neg h, if_neg (by omega), if_neg (by omega)]
  split
  · have hzero : fraction.length = 0 := by omega
    simp [hzero]
  · have hlength : (-(0 - (fraction.length : Int))).toNat = fraction.length := by omega
    rw [hlength]

namespace Positional
variable {s : Scaled} {whole fraction : List Char} (h : Positional s whole fraction)
include h

theorem isMantissa : Mantissa (positional s).toList := by
  rw [h.chars, pointedChars]
  split
  · rw [List.append_nil]
    exact .whole h.isWhole
  · exact .pointed h.isWhole h.isDigits

theorem ofChars? : Numeral.ofChars? (positional s).toList = some ⟨whole, fraction, 0⟩ := by
  have hne : ¬ (whole = [] ∧ fraction = []) := fun hnil => h.isWhole.ne_nil hnil.1
  have hfraction : ∀ c ∈ ([] : List Char).head?, isDigit c = false := nofun
  have hstop : ∀ c ∈ (if fraction = [] then [] else '.' :: fraction).head?, isDigit c = false := by
    split
    · nofun
    · rintro _ ⟨⟩
      rfl
  have hsplit : splitFraction (if fraction = [] then [] else '.' :: fraction) = (fraction, []) := by
    split
    · next hnil =>
      rw [hnil]
      rfl
    · rw [splitFraction, ← List.append_nil fraction, takeWhile_of_stop h.isDigits hfraction,
        dropWhile_of_stop h.isDigits hfraction, List.append_nil]
  rw [h.chars]
  unfold Numeral.ofChars? pointedChars
  rw [takeWhile_of_stop h.isWhole.digits hstop, dropWhile_of_stop h.isWhole.digits hstop, hsplit]
  dsimp only
  rw [if_neg hne]

theorem toFloat_eq (hs : 0 < s.digits) (negative : Bool) :
    (Numeral.mk whole fraction 0).toFloat negative = withSign negative s.toFloat := by
  have hvalue : s.toFloat =
      nearest false (digitsValue (whole ++ fraction)) (10 ^ fraction.length) := by
    rw [Scaled.toFloat, h.value]
  have hne : digitsValue (whole ++ fraction) ≠ 0 := by
    have hfst := congrArg Prod.fst h.value
    have hpos : 0 < s.ratio.1 := by
      unfold Scaled.ratio
      split
      · exact Nat.mul_pos hs (Nat.pow_pos (by decide))
      · exact hs
    dsimp only at hfst
    omega
  rw [toFloat_eq_nearest hne, nearest_withSign, hvalue]

theorem length_le : (positional s).toList.length ≤
    s.digits.repr.length + s.exponent.natAbs + 2 := by
  have hlength := h.length
  rw [h.chars, pointedChars, List.length_append]
  split
  · rw [List.length_nil]
    omega
  · rw [List.length_cons]
    omega

end Positional

end Reckon.Decimal
