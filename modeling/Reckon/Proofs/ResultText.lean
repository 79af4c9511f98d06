import Reckon.Proofs.Decimal.Layout
import Reckon.Proofs.Respacing

/-! The text of a result is read back as the result, both as a source text and as the text that a
variable is bound to. The words for what is no finite number are read as no number. -/
namespace Reckon
open Binary64 Decimal

namespace Spaced

theorem sole (w : Word) : Spaced [w] w.chars := by
  have h : Spaced [w] ([] ++ (w.chars ++ [])) := .cons nofun (.nil nofun) nofun
  rwa [List.nil_append, List.append_nil] at h

/-- A sign may touch what is no sign. -/
theorem signed {w : Word} (hw : w.isSign = false) (negative : Bool) :
    Spaced [.sign negative, w] ((Word.sign negative).chars ++ w.chars) := by
  have h : Spaced [.sign negative, w] ([] ++ ((Word.sign negative).chars ++ w.chars)) := by
    refine .cons nofun (.sole w) fun _ ⟨v, hv, hsign⟩ => ?_
    obtain rfl : w = v := Option.some.inj hv
    rw [hw] at hsign
    cases hsign
  exact h

end Spaced

theorem eq_ok_of_mapError {ε ε' α : Type} {f : ε → ε'} {r : Except ε α} {x : α}
    (h : r.mapError f = .ok x) : r = .ok x := by
  cases r with
  | error e => cases h
  | ok y => exact congrArg _ (Except.ok.inj h)

/-- A formula of a few words is evaluated to its value. -/
theorem mapError_evaluate {f : Formula} {source : String} (hspaced : Spaced f.words source.toList)
    (hlength : source.toList.length ≤ 16384) (hwords : f.words.length ≤ 256) (b : Bindings) :
    (evaluate source b).mapError (·.cause) = f.value b := by
  have hshort : Text.byteLength source.toList ≤ ({} : Limits).maxSourceLength := by
    have hle := Text.byteLength_le source.toList
    have hlimit : ({} : Limits).maxSourceLength = 65536 := rfl
    omega
  have hdepth : ∀ p, p <+: f.words.map (·.kind) →
      Grammar.nesting p ≤ ({} : Limits).effectiveDepth := by
    intro p hp
    have hnesting := Grammar.nesting_le_length p
    have hprefix := hp.length_le
    have hlimit : ({} : Limits).effectiveDepth = 256 := rfl
    rw [List.length_map] at hprefix
    omega
  obtain ⟨x, hx, hvalue⟩ := Formula.exists_validate hspaced hshort hdepth
  rw [evaluate, hx]
  exact hvalue b

/-- A numeral or a name, with a minus before it if there is need for one. -/
theorem mapError_evaluate_operand {f : Formula} {w : Word} {source : String} {negative : Bool}
    (hbinding : f.binding = 3) (hwords : f.words = [w]) (hw : w.isSign = false)
    (hsource : source.toList = (if negative then ['-'] else []) ++ w.chars)
    (hlength : source.toList.length ≤ 16384) (b : Bindings) :
    (evaluate source b).mapError (·.cause) =
      (f.value b).map fun x => if negative then -x else x := by
  cases negative with
  | false =>
    have hspaced : Spaced f.words source.toList := by
      rw [hwords, hsource]
      exact .sole w
    rw [mapError_evaluate hspaced hlength (by simp [hwords])]
    cases f.value b <;> rfl
  | true =>
    have hsigned : (Formula.signed true f).words = [.sign true, w] := by
      rw [Formula.words, hbinding, hwords]
      rfl
    have hspaced : Spaced (Formula.signed true f).words source.toList := by
      rw [hsigned, hsource]
      exact .signed hw true
    rw [mapError_evaluate hspaced hlength (by simp [hsigned]), Formula.value]
    cases f.value b <;> rfl

/-- The text stands for the number, as a source text and as the text that a variable is bound to. -/
structure StandsFor (text : String) (y : Float) : Prop where
  evaluated (b : Bindings) : evaluate text b = .ok y
  bound {b : Bindings} {t : Token} (h : b.get? t.lexeme = some (.json (.string text))) :
    Resolution.variableValue b t = .ok y

/-- The text has the name of a variable, which has no value where nothing is bound, and is no number
where it is a text that a variable is bound to. -/
structure StandsForNone (text name : String) : Prop where
  evaluated : (evaluate text Bindings.empty).mapError (·.cause) = .error (.undefinedVariable name)
  bound {b : Bindings} {t : Token} (h : b.get? t.lexeme = some (.json (.string text))) :
    Resolution.variableValue b t = .error ⟨.notANumber t.lexeme, t.span⟩

namespace BoundValue
variable {text : String}

/-- A text without blanks is read as a numeral. -/
theorem textNumber?_eq (hne : text.toList ≠ [])
    (hblank : ∀ c ∈ text.toList, Text.isBlank c = false) :
    textNumber? text = signed? text.toList := by
  unfold textNumber?
  rw [Text.trim_eq hblank]
  split
  · next h => exact absurd h hne
  · rfl

variable {b : Bindings} {t : Token}

theorem variableValue_eq_ok {y : Float} (h : b.get? t.lexeme = some (.json (.string text)))
    (hy : textNumber? text = some y) (hfinite : y.isFinite = true) :
    Resolution.variableValue b t = .ok y := by
  have hnumber : (BoundValue.json (.string text)).number? = some y := by
    rw [number?, rawNumber?, hy, Option.filter_some, if_pos hfinite]
  simp only [Resolution.variableValue_eq, h, hnumber]

theorem variableValue_eq_error (h : b.get? t.lexeme = some (.json (.string text)))
    (hy : textNumber? text = none) :
    Resolution.variableValue b t = .error ⟨.notANumber t.lexeme, t.span⟩ := by
  have hnumber : (BoundValue.json (.string text)).number? = none := by
    rw [number?, rawNumber?, hy]
    rfl
  simp only [Resolution.variableValue_eq, h, hnumber]

end BoundValue

theorem isBlank_of_isMantissaChar {c : Char} (h : Token.isMantissaChar c = true) :
    Text.isBlank c = false := by
  rw [Bool.eq_false_iff]
  intro hblank
  simp only [Token.isMantissaChar, isDigit, Bool.or_eq_true, Bool.and_eq_true, decide_eq_true_eq,
    beq_iff_eq, Char.le_def, UInt32.le_iff_toNat_le] at h
  have hbounds : 0x2e ≤ c.toNat ∧ c.toNat ≤ 0x39 := by
    obtain h | rfl := h
    · exact ⟨Nat.le_trans (by decide) h.1, h.2⟩
    · decide
  simp [Text.isBlank] at hblank
  omega

/-- A numeral, with a minus before it if there is need for one, stands for the number that is read
from it. -/
theorem standsFor_numeral {m : List Char} {n : Numeral} {text : String} {negative : Bool}
    {y : Float} (hm : Lexeme.Mantissa m) (hn : Numeral.ofChars? m = some n)
    (htext : text.toList = (if negative then ['-'] else []) ++ m)
    (hlength : text.toList.length ≤ 16384) (hread : n.toFloat negative = y)
    (hnegated : (if negative then -n.toFloat false else n.toFloat false) = y)
    (hfinite : y.isFinite = true) : StandsFor text y := by
  let literal : Literal := ⟨m, [], hm, .inl rfl⟩
  have hchars : literal.chars = m := List.append_nil m
  have hsigned (negative : Bool) : signed? ((if negative then ['-'] else []) ++ m) =
      some (n.toFloat negative) := by
    cases negative with
    | false =>
      have h := hm.signed?_eq []
      rw [List.append_nil, hn] at h
      exact h
    | true =>
      show (Numeral.ofChars? m).map _ = _
      rw [hn]
      rfl
  have hliteral : literal.value = n.toFloat false := by
    have h := literal.signed?_chars
    rw [hchars] at h
    exact Option.some.inj (h.symm.trans (hsigned false))
  constructor
  · intro b
    have h := @mapError_evaluate_operand (.number literal) (.numeral literal) text negative rfl rfl
      rfl (htext.trans (by rw [Word.chars, hchars])) hlength b
    rw [Formula.value, Except.map, hliteral, hnegated] at h
    exact eq_ok_of_mapError h
  · intro b t h
    refine BoundValue.variableValue_eq_ok h ?_ hfinite
    rw [BoundValue.textNumber?_eq, htext, hsigned, hread]
    · obtain ⟨c, cs, rfl, -⟩ := hm.startsNumeral
      simp [htext]
    · intro d hd
      rw [htext, List.mem_append] at hd
      obtain hd | hd := hd
      · cases negative
        · cases hd
        · rw [List.mem_singleton.mp hd]
          decide
      · exact isBlank_of_isMantissaChar (hm.isMantissaChar d hd)

/-- A name, with a minus before it if there is need for one, stands for no number if it is no word
for a number. -/
theorem standsForNone_name {x : Identifier} {text : String} {negative : Bool}
    (hname : x.text ≠ "Math") (htext : text.toList = (if negative then ['-'] else []) ++ x.chars)
    (hlength : text.toList.length ≤ 16384) (hread : BoundValue.textNumber? text = none) :
    StandsForNone text x.text := by
  constructor
  · rw [@mapError_evaluate_operand (.var x hname) (.name x) text negative rfl rfl rfl htext hlength,
      Formula.value, Resolution.variableNamed]
    rfl
  · intro b t h
    exact BoundValue.variableValue_eq_error h hread

theorem standsFor_zero : StandsFor "0" 0 :=
  @standsFor_numeral ['0'] ⟨['0'], [], 0⟩ "0" false 0 (.whole .zero) rfl rfl (by decide) rfl rfl rfl

/-- The text of a finite number that is not zero. -/
theorem toList_resultText {x : Float} (h : x.isFinite = true) (hne : (x == 0) = false) :
    (resultText x).toList =
      (if isNegative x then ['-'] else []) ++ (positional (shortest .toUpper x)).toList := by
  have hinf : x.isInf = false := by
    rw [Bool.eq_false_iff]
    exact fun hinf => isFinite_iff.mp h (isInf_iff.mp hinf).1
  unfold resultText Style.text
  rw [hne, isNaN_eq_false h, hinf]
  cases isNegative x <;> simp [resultStyle]

theorem standsFor_finite {x : Float} (h : x.isFinite = true) (hne : (x == 0) = false) :
    StandsFor (resultText x) x := by
  have hnan := isNaN_eq_false h
  have hm : 0 < mantissa x := Nat.pos_of_ne_zero fun hm => by simp [beq_zero_iff.mpr hm] at hne
  have htext := toList_resultText h hne
  have hrenders := renders_shortest h hm .toUpper
  have hs := hrenders.digits_pos (by rwa [mantissa_withSign hnan])
  obtain ⟨whole, fraction, hpositional⟩ := exists_positional hs
  have hread (negative : Bool) : (Numeral.mk whole fraction 0).toFloat negative =
      withSign negative x := by
    rw [hpositional.toFloat_eq hs, hrenders.value, withSign_withSign hnan]
  have hself : withSign (isNegative x) x = x := withSign_isNegative hnan
  refine standsFor_numeral hpositional.isMantissa hpositional.ofChars? htext ?_
    ((hread _).trans hself) ?_ h
  · have hlength := hpositional.length_le
    have hdigits := (Nat.length_repr_le_iff (by decide)).mpr hrenders.digits
    have hlow := hrenders.low
    have hhigh := hrenders.high
    rw [htext, List.length_append]
    split
    · rw [List.length_singleton]
      omega
    · rw [List.length_nil]
      omega
  · rw [hread]
    cases hnegative : isNegative x with
    | false =>
      rw [hnegative] at hself
      exact hself
    | true =>
      rw [hnegative] at hself
      rw [if_pos rfl, neg_eq_withSign (isNaN_withSign hnan false), isNegative_withSign hnan,
        withSign_withSign hnan]
      exact hself

/-- Infinities and NaN have words of their own, before which a minus may stand. -/
theorem standsForNone_special {x : Float} (h : x.isFinite = false) :
    StandsForNone (resultText x) (if x.isNaN then "NaN" else "Infinity") := by
  have hexponent : biasedExponent x = 2047 :=
    Decidable.byContradiction fun hne => by simp [isFinite_iff.mpr hne] at h
  have hzero : (x == 0) = false := by
    rw [Bool.eq_false_iff]
    intro hzero
    have hexponent' := (mantissa_eq_zero_iff.mp (beq_zero_iff.mp hzero)).1
    omega
  by_cases hnan : x.isNaN = true
  · let nan : Identifier := ⟨'N', ['a', 'N'], rfl, List.all_eq_true.mp rfl⟩
    have htext : resultText x = "NaN" := by
      rw [resultText, hzero, Style.text, hnan]
      rfl
    rw [htext, if_pos hnan]
    exact @standsForNone_name nan _ false (by decide) (by decide) (by decide) (by decide)
  · let infinity : Identifier :=
      ⟨'I', ['n', 'f', 'i', 'n', 'i', 't', 'y'], rfl, List.all_eq_true.mp rfl⟩
    have hinf : x.isInf = true := isInf_of_not_isNaN h hnan
    have htext : resultText x = (if isNegative x then "-" else "") ++ "Infinity" := by
      rw [resultText, hzero, Style.text, if_neg hnan, hinf]
      rfl
    rw [htext, if_neg hnan]
    cases isNegative x with
    | false =>
      exact @standsForNone_name infinity _ false (by decide) (by decide) (by decide) (by decide)
    | true =>
      exact @standsForNone_name infinity _ true (by decide) (by decide) (by decide) (by decide)

/-- The text of a finite number stands for the number, and for zero if it is a zero of either sign.
The text of any other double stands for no number. -/
theorem standsFor_resultText (x : Float) :
    (x.isFinite = true → StandsFor (resultText x) (if x == 0 then 0 else x)) ∧
    (x.isFinite = false →
      StandsForNone (resultText x) (if x.isNaN then "NaN" else "Infinity")) := by
  refine ⟨fun h => ?_, standsForNone_special⟩
  by_cases hzero : (x == 0) = true
  · rw [resultText, if_pos hzero, if_pos hzero]
    exact standsFor_zero
  · rw [if_neg hzero]
    exact standsFor_finite h (by simpa using hzero)

/-- A fraction with a sign, and an infinity with a sign. -/
theorem standsFor_resultText_signed :
    StandsFor "-0.1" (-0.1) ∧ StandsForNone "-Infinity" "Infinity" := by
  have hfraction : resultText (-0.1) = "-0.1" := by decide +kernel
  have hinfinity : resultText (-infinity) = "-Infinity" := by decide +kernel
  constructor
  · have h := (standsFor_resultText (-0.1)).1 rfl
    rw [hfraction] at h
    exact h
  · have h := (standsFor_resultText (-infinity)).2 rfl
    rw [hinfinity] at h
    exact h

end Reckon
