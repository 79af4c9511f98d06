import Mathlib.Control.Monad.Basic
import Reckon.Proofs.ResultText

/-! Numerals with a sign before them. As a source text a numeral is scanned and its value negated; as
the text that a variable is bound to it is trimmed and read with its sign at once. Both give the same
double, but for an infinite one, which is no value of a variable. -/
namespace Reckon
open Binary64 Decimal

namespace Binary64
variable {x : Float}

theorem isNaN_infinity : infinity.isNaN = false := by decide +kernel

/-- There is one infinity that is not negative. -/
theorem eq_infinity (h : x.isFinite = false) (hnan : x.isNaN = false)
    (hsign : isNegative x = false) : x = infinity := by
  obtain ⟨he, hf⟩ := isInf_iff.mp (isInf_of_not_isNaN h (by rw [hnan]; nofun))
  have hlt := x.toBits.toNat_lt
  have hbits : x.toBits.toNat = 0x7FF0000000000000 := by
    rw [isNegative, beq_eq_false_iff_ne] at hsign
    unfold biasedExponent at he
    unfold fraction at hf
    omega
  exact eq_of_toBits (UInt64.toNat_inj.mp hbits)

theorem isFinite_neg_eq (hnan : x.isNaN = false) : (-x).isFinite = x.isFinite := by
  rw [neg_eq_withSign hnan, Bool.eq_iff_iff, isFinite_iff, isFinite_iff,
    biasedExponent_withSign hnan]

end Binary64

namespace Decimal.Numeral

/-- A numeral is rounded, or it is out of reach. -/
theorem exists_toFloat (n : Numeral) :
    (∃ p q, ∀ negative, n.toFloat negative = nearest negative p q) ∨
      ∀ negative, n.toFloat negative = withSign negative infinity := by
  unfold toFloat
  dsimp only
  split
  · exact .inl ⟨0, 1, fun _ => rfl⟩
  · split
    · exact .inr fun _ => rfl
    · split
      · exact .inl ⟨0, 1, fun _ => rfl⟩
      · split
        · exact .inl ⟨_, 1, fun _ => rfl⟩
        · exact .inl ⟨_, _, fun _ => rfl⟩

theorem toFloat_isNumber (n : Numeral) (negative : Bool) :
    (n.toFloat negative).isNaN = false ∧ isNegative (n.toFloat negative) = negative := by
  obtain ⟨p, q, h⟩ | h := n.exists_toFloat
  · rw [h]
    exact nearest_isNumber ..
  · rw [h]
    exact ⟨isNaN_withSign isNaN_infinity negative, isNegative_withSign isNaN_infinity negative⟩

/-- Numerals are read alike with either sign. -/
theorem toFloat_eq_withSign (n : Numeral) (negative : Bool) :
    n.toFloat negative = withSign negative (n.toFloat false) := by
  obtain ⟨p, q, h⟩ | h := n.exists_toFloat
  · rw [h, h]
    exact nearest_withSign ..
  · rw [h, h]
    exact (withSign_withSign isNaN_infinity ..).symm

theorem neg_toFloat (n : Numeral) : -n.toFloat false = n.toFloat true := by
  obtain ⟨hnan, hsign⟩ := n.toFloat_isNumber false
  rw [neg_eq_withSign hnan, hsign, toFloat_eq_withSign n true]
  rfl

end Decimal.Numeral

namespace Text

/-- Blanks around a text without blanks are trimmed off. -/
theorem trim_append {left body right : List Char} (hleft : ∀ c ∈ left, isBlank c = true)
    (hright : ∀ c ∈ right, isBlank c = true) (hne : body ≠ [])
    (hbody : ∀ c ∈ body, isBlank c = false) : trim (left ++ (body ++ right)) = body := by
  have hfirst : ∀ c ∈ (body ++ right).head?, isBlank c = false := by
    obtain ⟨d, ds, rfl⟩ := List.exists_cons_of_ne_nil hne
    rintro _ ⟨⟩
    exact hbody d (List.mem_cons_self ..)
  have hlast : ∀ c ∈ body.reverse.head?, isBlank c = false := by
    intro c hc
    exact hbody c (List.mem_reverse.mp (List.mem_of_mem_head? hc))
  have hreverse : ∀ c ∈ right.reverse, isBlank c = true := fun c hc =>
    hright c (List.mem_reverse.mp hc)
  rw [trim, dropWhile_of_stop hleft hfirst, List.reverse_append, dropWhile_of_stop hreverse hlast,
    List.reverse_reverse]

end Text

namespace Grammar

/-- Nothing is nested where no parenthesis is opened. -/
theorem nesting_le_of_prefix {p ks : List TokenKind} (hp : p <+: ks)
    (h : TokenKind.symbol .openParen ∉ ks) (depth : Nat) : nesting p ≤ depth := by
  have hcount : p.count (.symbol .openParen) = 0 :=
    List.count_eq_zero.mpr fun hmem => h (hp.subset hmem)
  rw [nesting, hcount]
  omega

end Grammar

namespace Literal

theorem exists_ofChars? (n : Literal) :
    ∃ k, Numeral.ofChars? n.chars = some k ∧ n.value = k.toFloat false := by
  obtain ⟨k, hk⟩ := Lexeme.exists_ofChars? n.isMantissa n.isExponent
  have hvalue : some n.value = some (k.toFloat false) := by
    rw [← n.signed?_chars, chars, n.isMantissa.signed?_eq, hk]
    rfl
  exact ⟨k, hk, Option.some.inj hvalue⟩

theorem value_isNumber (n : Literal) : n.value.isNaN = false ∧ isNegative n.value = false := by
  obtain ⟨k, -, hvalue⟩ := n.exists_ofChars?
  rw [hvalue]
  exact k.toFloat_isNumber false

theorem isBlank_eq_false (n : Literal) : ∀ c ∈ n.chars, Text.isBlank c = false := by
  intro c hc
  obtain hm | hx := List.mem_append.mp hc
  · exact isBlank_of_isMantissaChar (n.isMantissa.isMantissaChar c hm)
  · obtain hnil | h := n.isExponent
    · rw [hnil] at hx
      cases hx
    · have hdigit (d : Char) (hd : isDigit d = true) : Text.isBlank d = false :=
        isBlank_of_isMantissaChar (by simp [Token.isMantissaChar, hd])
      exact h.forall_mem (by simp [Text.isBlank]) hdigit c hx

/-- The numeral that a text is scanned as. -/
theorem exists_of_tokenize {n : List Char} {v : Float} {span : Span}
    (h : tokenize n = .ok [⟨.number v, String.ofList n, span⟩]) :
    ∃ k : Literal, k.chars = n ∧ k.value = v := by
  obtain ⟨w, hw⟩ := (tokenizeFrom_eq_ok_iff.mp h).exists_word _ (List.mem_singleton_self _)
  obtain ⟨hkind, hchars⟩ := Prod.mk.inj hw
  cases w with
  | numeral k => exact ⟨k, String.ofList_injective hchars, TokenKind.number.inj hkind⟩
  | name | symbol => cases hkind

variable (n : Literal) {sign : List Char} (hsign : sign ∈ [[], ['+'], ['-']])
include hsign

/-- The sign is read with the numeral. -/
theorem signed?_append :
    signed? (sign ++ n.chars) = some (if sign = ['-'] then -n.value else n.value) := by
  obtain ⟨k, hk, hvalue⟩ := n.exists_ofChars?
  simp only [List.mem_cons, List.not_mem_nil, or_false] at hsign
  obtain rfl | rfl | rfl := hsign
  · exact n.signed?_chars
  · show (Numeral.ofChars? n.chars).map (·.toFloat false) = _
    rw [hk, hvalue, if_neg (by decide), Option.map_some]
  · show (Numeral.ofChars? n.chars).map (·.toFloat true) = _
    rw [hk, hvalue, if_pos rfl, k.neg_toFloat, Option.map_some]

/-- The value of the numeral is negated behind a minus. -/
theorem evaluate_append {source : String} {limits : Limits}
    (hsource : source.toList = sign ++ n.chars)
    (hlength : Text.byteLength source.toList ≤ limits.maxSourceLength) (b : Bindings) :
    evaluate source b limits = .ok (if sign = ['-'] then -n.value else n.value) := by
  have hvalue (f : Formula) (hspaced : Spaced f.words source.toList)
      (hopen : TokenKind.symbol .openParen ∉ f.words.map (·.kind)) :
      (evaluate source b limits).mapError (·.cause) = f.value b := by
    obtain ⟨x, hx, hvalue⟩ := Formula.exists_validate hspaced hlength
      fun _ hp => Grammar.nesting_le_of_prefix hp hopen _
    rw [evaluate, hx]
    exact hvalue b
  have hsigned (negative : Bool) : TokenKind.symbol .openParen ∉
      (Formula.signed negative (.number n)).words.map (·.kind) := by
    show TokenKind.symbol .openParen ∉ [(Word.sign negative).kind, .number n.value]
    cases negative <;> simp [Word.sign, Word.kind]
  apply eq_ok_of_mapError (f := (·.cause))
  simp only [List.mem_cons, List.not_mem_nil, or_false] at hsign
  obtain rfl | rfl | rfl := hsign
  · have hspaced := Spaced.sole (.numeral n)
    exact hvalue (.number n) (hsource ▸ hspaced) (by simp [Formula.words, Word.kind])
  · have hspaced : Spaced [.sign false, .numeral n] (['+'] ++ n.chars) := .signed rfl false
    exact hvalue (.signed false (.number n)) (hsource ▸ hspaced) (hsigned false)
  · have hspaced : Spaced [.sign true, .numeral n] (['-'] ++ n.chars) := .signed rfl true
    exact hvalue (.signed true (.number n)) (hsource ▸ hspaced) (hsigned true)

/-- Blanks around the numeral do not matter where a variable is bound to it. -/
theorem textNumber?_append {left right : List Char} (hleft : ∀ c ∈ left, Text.isBlank c = true)
    (hright : ∀ c ∈ right, Text.isBlank c = true) :
    BoundValue.textNumber? (String.ofList (left ++ (sign ++ n.chars ++ right))) =
      some (if sign = ['-'] then -n.value else n.value) := by
  obtain ⟨c, cs, hcons, -⟩ := n.isMantissa.startsNumeral
  have hne : sign ++ n.chars ≠ [] := by simp [chars, hcons]
  have hblank : ∀ d ∈ sign ++ n.chars, Text.isBlank d = false := by
    intro d hd
    obtain hd | hd := List.mem_append.mp hd
    · simp only [List.mem_cons, List.not_mem_nil, or_false] at hsign
      obtain rfl | rfl | rfl := hsign
      · cases hd
      · exact List.mem_singleton.mp hd ▸ rfl
      · exact List.mem_singleton.mp hd ▸ rfl
    · exact n.isBlank_eq_false d hd
  unfold BoundValue.textNumber?
  rw [String.toList_ofList, Text.trim_append hleft hright hne hblank]
  split
  · next hnil => exact absurd hnil hne
  · exact n.signed?_append hsign

end Literal

/-- A numeral as a source text and as the text that a variable is bound to, with a sign before it or
none and with any blanks around the bound text. The value of the source is the value of the numeral
with the sign. It is the value of the variable too if it is finite, and the infinite one is the value
of a source only. -/
theorem signed_numeral_agrees (n sign left right : List Char) (v : Float) (limits : Limits)
    (hn : tokenize n = .ok [⟨.number v, String.ofList n, ⟨0, Text.byteLength n⟩⟩])
    (hsign : sign ∈ [[], ['+'], ['-']])
    (hlength : Text.byteLength (sign ++ n) ≤ limits.maxSourceLength)
    (hleft : ∀ c ∈ left, Text.isBlank c = true) (hright : ∀ c ∈ right, Text.isBlank c = true) :
    let signed := if sign = ['-'] then -v else v
    let bound := BoundValue.json (.string (String.ofList (left ++ (sign ++ n ++ right))))
    (∀ b, evaluate (String.ofList (sign ++ n)) b limits = .ok signed) ∧
    (v.isFinite = true → bound.number? = some signed ∧
      ∀ (b : Bindings) (name : Token), b.get? name.lexeme = some bound →
        Resolution.variableValue b name = .ok signed) ∧
    (v.isFinite = false → v = infinity ∧ bound.number? = none ∧
      ∀ (b : Bindings) (name : Token), b.get? name.lexeme = some bound →
        Resolution.variableValue b name = .error ⟨.notANumber name.lexeme, name.span⟩) := by
  obtain ⟨k, rfl, rfl⟩ := Literal.exists_of_tokenize hn
  intro signed bound
  obtain ⟨hnan, hpositive⟩ := k.value_isNumber
  have hfinite : signed.isFinite = k.value.isFinite := by
    show (if sign = ['-'] then -k.value else k.value).isFinite = _
    split
    · exact isFinite_neg_eq hnan
    · rfl
  have hnumber : bound.number? = if k.value.isFinite then some signed else none := by
    have htext : bound.rawNumber? = some signed := k.textNumber?_append hsign hleft hright
    rw [BoundValue.number?, htext, Option.filter_some, hfinite]
  have hvariable (b : Bindings) (name : Token) (h : b.get? name.lexeme = some bound) :
      Resolution.variableValue b name = if k.value.isFinite then .ok signed
        else .error ⟨.notANumber name.lexeme, name.span⟩ := by
    simp only [Resolution.variableValue_eq, h, hnumber]
    cases k.value.isFinite <;> rfl
  refine ⟨fun b => ?_, fun h => ?_, fun h => ?_⟩
  · refine k.evaluate_append hsign String.toList_ofList ?_ b
    rwa [String.toList_ofList]
  · simp only [h, if_true] at hnumber hvariable
    exact ⟨hnumber, hvariable⟩
  · simp only [h, Bool.false_eq_true, if_false] at hnumber hvariable
    exact ⟨eq_infinity h hnan hpositive, hnumber, hvariable⟩

/-- A zero behind a minus, between blanks that are no gaps of a source, and an infinity. -/
theorem signed_numeral_agrees_extremes :
    (evaluate "-0." Bindings.empty = .ok (-0) ∧
      (BoundValue.json (.string "\u3000-0.\u00a0")).number? = some (-0)) ∧
    evaluate "+1.e400" Bindings.empty = .ok infinity ∧
      (BoundValue.json (.string "+1.e400\n")).number? = none := by
  have hzero : tokenize "0.".toList = .ok [⟨.number 0, "0.", ⟨0, 2⟩⟩] := by decide +kernel
  have hinfinity : tokenize "1.e400".toList = .ok [⟨.number infinity, "1.e400", ⟨0, 6⟩⟩] := by
    decide +kernel
  constructor
  · obtain ⟨hvalue, hfinite, -⟩ := signed_numeral_agrees "0.".toList ['-'] ['\u3000'] ['\u00a0'] 0 {}
      hzero (by decide) (by decide) (List.all_eq_true.mp rfl) (List.all_eq_true.mp rfl)
    exact ⟨hvalue Bindings.empty, (hfinite rfl).1⟩
  · obtain ⟨hvalue, -, hinfinite⟩ := signed_numeral_agrees "1.e400".toList ['+'] [] ['\n'] infinity {}
      hinfinity (by decide) (by decide) (List.all_eq_true.mp rfl) (List.all_eq_true.mp rfl)
    exact ⟨hvalue Bindings.empty, (hinfinite (by decide +kernel)).2.1⟩

end Reckon
