import Reckon.Proofs.Lexeme

/-! The decimal digits of a number: they have its value, and there is no needless zero in front. -/
namespace Reckon
open Decimal Lexeme

namespace Decimal

theorem digitsValue_eq_ofDigitChars (ds : List Char) :
    digitsValue ds = Nat.ofDigitChars 10 ds 0 := by
  rw [Nat.ofDigitChars_eq_foldl]
  rfl

theorem digitsValue_append (ds es : List Char) :
    digitsValue (ds ++ es) = 10 ^ es.length * digitsValue ds + digitsValue es := by
  rw [digitsValue_eq_ofDigitChars, Nat.ofDigitChars_append, Nat.ofDigitChars_eq_ofDigitChars_zero,
    ← digitsValue_eq_ofDigitChars, ← digitsValue_eq_ofDigitChars]

theorem digitsValue_repr (n : Nat) : digitsValue n.repr.toList = n := by
  rw [digitsValue_eq_ofDigitChars, Nat.toList_repr, Nat.ofDigitChars_ten_toDigits]

theorem digitsValue_zeros (k : Nat) : digitsValue (List.replicate k '0') = 0 := by
  induction k with
  | zero => rfl
  | succ k ih =>
    rw [List.replicate_succ', digitsValue_append, ih]
    rfl

theorem isDigit_of_isDigit {c : Char} (h : c.isDigit = true) : isDigit c = true := by
  simpa [Char.isDigit, isDigit, Char.le_def, Nat.and_comm] using h

end Decimal

namespace Lexeme

theorem Digits.whole {d : Char} {ds : List Char} (h : Digits (d :: ds)) (hd : d ≠ '0') :
    Whole (d :: ds) :=
  .nonzero (h d (List.mem_cons_self ..)) hd fun c hc => h c (List.mem_cons_of_mem _ hc)

theorem Digits.append {cs ds : List Char} (hcs : Digits cs) (hds : Digits ds) :
    Digits (cs ++ ds) := by
  intro c hc
  obtain hc | hc := List.mem_append.mp hc
  · exact hcs c hc
  · exact hds c hc

theorem digits_zeros (k : Nat) : Digits (List.replicate k '0') := by
  intro c hc
  rw [List.eq_of_mem_replicate hc]
  rfl

theorem digits_repr (n : Nat) : Digits n.repr.toList := by
  intro c hc
  rw [Nat.toList_repr] at hc
  exact isDigit_of_isDigit (Nat.isDigit_of_mem_toDigits (by decide) (by decide) hc)

/-- Only zero has a zero for its first digit. -/
theorem exists_cons_repr {n : Nat} (h : 0 < n) : ∃ d ds, n.repr.toList = d :: ds ∧ d ≠ '0' := by
  induction n using Nat.strongRecOn with
  | ind n ih =>
    by_cases hn : n < 10
    · refine ⟨n.digitChar, [], ?_, ?_⟩
      · rw [Nat.toList_repr, Nat.toDigits_of_lt_base hn]
      · rw [Ne, Nat.digitChar_eq_zero]
        omega
    · obtain ⟨d, ds, hd, hne⟩ := ih (n / 10) (by omega) (by omega)
      rw [Nat.repr_of_ge (by omega), String.toList_append, hd]
      exact ⟨d, _, rfl, hne⟩

theorem whole_repr (n : Nat) : Whole n.repr.toList := by
  obtain rfl | hn := Nat.eq_zero_or_pos n
  · exact .zero
  · have hdigits := digits_repr n
    obtain ⟨d, ds, hd, hne⟩ := exists_cons_repr hn
    rw [hd] at hdigits ⊢
    exact hdigits.whole hne

end Lexeme

end Reckon
