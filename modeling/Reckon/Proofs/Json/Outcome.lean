import Reckon.Proofs.Json.Delimited
import Reckon.Proofs.ResultText

/-! A report tells outcomes apart: any two failures, a failure from a value, and values that do not
compare equal. -/
namespace Reckon
open Binary64 Decimal

theorem Cause.eq_of_kind_of_subject {c d : Cause} (hkind : c.kind = d.kind)
    (hsubject : c.subject = d.subject) : c = d := by
  cases c <;> cases d <;> simp_all [kind, subject]

theorem Diagnostic.ofFailure_injective : Function.Injective ofFailure := by
  rintro ⟨c, s⟩ ⟨d, t⟩ h
  have hcause : c = d :=
    Cause.eq_of_kind_of_subject (congrArg Diagnostic.kind h) (congrArg Diagnostic.subject h)
  have hspan : s = t := congrArg Diagnostic.span h
  rw [hcause, hspan]

namespace Decimal
variable {x y : Float}

theorem resultText_of_beq_zero (h : (x == 0) = true) : resultText x = "0" := if_pos h

theorem resultText_infinite (h : x.isInf = true) :
    resultText x = (if isNegative x then "-" else "") ++ "Infinity" := by
  obtain ⟨he, hf⟩ := isInf_iff.mp h
  have hnan : ¬ x.isNaN = true := fun hnan => (isNaN_iff.mp hnan).2 hf
  have hzero : ¬ (x == 0) = true := by
    intro hzero
    have hm := mantissa_eq_zero_iff.mp (beq_zero_iff.mp hzero)
    omega
  rw [resultText, if_neg hzero, Style.text, if_neg hnan, if_pos h]
  rfl

/-- The text of a finite number, read as a source text. -/
theorem evaluate_resultText (h : x.isFinite = true) :
    evaluate (resultText x) Bindings.empty = .ok (if x == 0 then 0 else x) := by
  by_cases hzero : (x == 0) = true
  · rw [resultText_of_beq_zero hzero, if_pos hzero]
    exact standsFor_zero.evaluated _
  · rw [if_neg hzero]
    exact (standsFor_finite h (Bool.eq_false_iff.mpr hzero)).evaluated _

theorem beq_of_resultText_eq_of_isFinite (hx : x.isFinite = true) (hy : y.isFinite = true)
    (h : resultText x = resultText y) : (x == y) = true := by
  have hread : evaluate (resultText x) Bindings.empty = _ := evaluate_resultText hx
  rw [h, evaluate_resultText hy] at hread
  have hvalue : (if y == 0 then 0 else y) = if x == 0 then 0 else x := Except.ok.inj hread
  rw [beq_iff_eq_or_zeros]
  by_cases hxzero : (x == 0) = true
  · by_cases hyzero : (y == 0) = true
    · exact .inr ⟨hxzero, hyzero⟩
    · rw [if_pos hxzero, if_neg hyzero] at hvalue
      rw [hvalue] at hyzero
      exact absurd rfl hyzero
  · by_cases hyzero : (y == 0) = true
    · rw [if_neg hxzero, if_pos hyzero] at hvalue
      rw [← hvalue] at hxzero
      exact absurd rfl hxzero
    · rw [if_neg hxzero, if_neg hyzero] at hvalue
      exact .inl ⟨hvalue.symm, isNaN_eq_false hx⟩

theorem eq_of_resultText_eq_of_isInf (hx : x.isInf = true) (hy : y.isInf = true)
    (h : resultText x = resultText y) : x = y := by
  have hnegative : isNegative x = isNegative y := by
    rw [resultText_infinite hx, resultText_infinite hy] at h
    revert h
    cases isNegative x <;> cases isNegative y <;> decide
  have hsign : sign x = sign y := by rw [sign, sign, hnegative]
  obtain ⟨hxe, hxf⟩ := isInf_iff.mp hx
  obtain ⟨hye, hyf⟩ := isInf_iff.mp hy
  refine eq_of_unpack ?_
  rw [unpack_infinite hxe hxf, unpack_infinite hye hyf, hsign]

/-- The text of what is no finite number is read as a name. -/
theorem resultText_ne (hx : x.isFinite = true) (hy : y.isFinite = false) :
    resultText x ≠ resultText y := by
  intro h
  have hname := (standsForNone_special hy).evaluated
  rw [← h, evaluate_resultText hx] at hname
  cases hname

theorem isNaN_eq_of_resultText_eq (hx : x.isFinite = false) (hy : y.isFinite = false)
    (h : resultText x = resultText y) : x.isNaN = y.isNaN := by
  have hread := (standsForNone_special hx).evaluated
  rw [h, (standsForNone_special hy).evaluated] at hread
  have hname : (if y.isNaN then "NaN" else "Infinity") = if x.isNaN then "NaN" else "Infinity" :=
    Cause.undefinedVariable.inj (Except.error.inj hread)
  revert hname
  cases x.isNaN <;> cases y.isNaN <;> decide

/-- Results have the same text exactly if they compare equal or are both NaN. -/
theorem resultText_eq_iff :
    resultText x = resultText y ↔ (x == y) = true ∨ x.isNaN = true ∧ y.isNaN = true := by
  constructor
  · intro h
    cases hx : x.isFinite with
    | true =>
      cases hy : y.isFinite with
      | true => exact .inl (beq_of_resultText_eq_of_isFinite hx hy h)
      | false => exact absurd h (resultText_ne hx hy)
    | false =>
      cases hy : y.isFinite with
      | true => exact absurd h.symm (resultText_ne hy hx)
      | false =>
        have hnan := isNaN_eq_of_resultText_eq hx hy h
        by_cases hxnan : x.isNaN = true
        · exact .inr ⟨hxnan, hnan ▸ hxnan⟩
        · have hxinf := isInf_of_not_isNaN hx hxnan
          have hyinf := isInf_of_not_isNaN hy (hnan ▸ hxnan)
          have heq := eq_of_resultText_eq_of_isInf hxinf hyinf h
          exact .inl (beq_iff_eq_or_zeros.mpr (.inl ⟨heq, Bool.eq_false_iff.mpr hxnan⟩))
  · rintro (h | ⟨hx, hy⟩)
    · obtain ⟨rfl, -⟩ | ⟨hx, hy⟩ := beq_iff_eq_or_zeros.mp h
      · rfl
      · rw [resultText_of_beq_zero hx, resultText_of_beq_zero hy]
    · rw [eq_of_isNaN hx hy]

end Decimal

/-- Outcomes between which a report makes no difference. The zeros compare equal. -/
def SameResult : Except Failure Float → Except Failure Float → Prop
  | .ok x, .ok y => (x == y) = true ∨ x.isNaN = true ∧ y.isNaN = true
  | .error f, .error g => f = g
  | _, _ => False

namespace Report

/-- The texts of two reports are the same exactly if the outcomes are the same failure, values that
compare equal, or both NaN. -/
theorem toJson_ofOutcome_eq_iff (o p : Except Failure Float) :
    (ofOutcome o).toJson = (ofOutcome p).toJson ↔ SameResult o p := by
  rw [delimited_toJson.injective.eq_iff]
  cases o with
  | ok x =>
    cases p with
    | ok y =>
      have hreport : ofOutcome (.ok x) = ofOutcome (.ok y) ↔ resultText x = resultText y := by
        simp [ofOutcome]
      exact hreport.trans resultText_eq_iff
    | error g => exact iff_of_false nofun id
  | error f =>
    cases p with
    | ok y => exact iff_of_false nofun id
    | error g =>
      constructor
      · intro h
        have hdiagnostic := congrArg Report.diagnostic h
        exact Diagnostic.ofFailure_injective (Option.some.inj hdiagnostic)
      · intro h
        exact congrArg (fun f => ofOutcome (.error f)) h

end Report

end Reckon
