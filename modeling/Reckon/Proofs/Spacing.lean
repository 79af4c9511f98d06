import Reckon.Proofs.Adjacency
import Reckon.Proofs.Tokenization

/-! Words and the texts that consist of them. With or without gaps between them, words that may
stand side by side are scanned into tokens of their own, as long as no two signs touch. -/
namespace Reckon
open Text Token

structure Literal where
  mantissa : List Char
  exponent : List Char
  isMantissa : Lexeme.Mantissa mantissa
  isExponent : exponent = [] ∨ Lexeme.Exponent exponent

namespace Literal

def chars (n : Literal) : List Char := n.mantissa ++ n.exponent

def value (n : Literal) : Float :=
  (Decimal.signed? n.chars).get
    (Option.isSome_iff_exists.mpr (n.isMantissa.exists_signed? n.isExponent))

theorem signed?_chars (n : Literal) : Decimal.signed? n.chars = some n.value :=
  (Option.some_get _).symm

theorem first (n : Literal) : ∀ c ∈ n.chars.head?, Decimal.isDigit c = true ∨ c = '.' := by
  obtain ⟨d, ds, hd, hstart⟩ := n.isMantissa.startsNumeral
  intro c hc
  rw [chars, hd] at hc
  cases hc
  exact hstart.imp_right And.left

end Literal

structure Identifier where
  first : Char
  others : List Char
  isLetter : isLetter first = true
  isNameChar : ∀ c ∈ others, isNameChar c = true

namespace Identifier

def chars (x : Identifier) : List Char := x.first :: x.others

def text (x : Identifier) : String := String.ofList x.chars

def math : Identifier := ⟨'M', ['a', 't', 'h'], rfl, List.all_eq_true.mp rfl⟩

end Identifier

/-- What a token of an expression may be, with its lexeme. -/
inductive Word where
  | numeral (n : Literal)
  | name (x : Identifier)
  | symbol (s : Symbol)

namespace Word

def chars : Word → List Char
  | .numeral n => n.chars
  | .name x => x.chars
  | .symbol s => s.text.toList

def kind : Word → TokenKind
  | .numeral n => .number n.value
  | .name x => .identifier x.text
  | .symbol s => .symbol s

def isSign (w : Word) : Bool := w.kind.isSign

end Word

def Token.content (t : Token) : TokenKind × String := (t.kind, t.lexeme)

def Word.content (w : Word) : TokenKind × String := (w.kind, String.ofList w.chars)

theorem map_kind_of_content {ts : List Token} {ws : List Word}
    (h : ts.map (·.content) = ws.map (·.content)) : ts.map (·.kind) = ws.map (·.kind) := by
  have hkinds := congrArg (List.map Prod.fst) h
  rwa [List.map_map, List.map_map] at hkinds

/-- A text that consists of the words, with any gaps around them. Two signs do not touch. -/
inductive Spaced : List Word → List Char → Prop where
  | nil {gap} : (∀ c ∈ gap, isGap c = true) → Spaced [] gap
  | cons {gap w ws text} : (∀ c ∈ gap, isGap c = true) → Spaced ws text →
      (w.isSign = true → (∃ v ∈ ws.head?, v.isSign = true) → ∃ c ∈ text.head?, isGap c = true) →
      Spaced (w :: ws) (gap ++ (w.chars ++ text))

theorem Symbol.goesOn_eq_false {s : Symbol} {c : Char} (hplus : c ≠ '+') (hminus : c ≠ '-')
    (hdot : s = .dot → Decimal.isDigit c = false) : s.goesOn c = false := by
  cases s <;> simp [goesOn, hplus, hminus, hdot]

namespace Word

/-- Whether the character might go on with the word. -/
def goesOn : Word → Char → Bool
  | .numeral _, c => Decimal.isDigit c || c == '.' || isLetter c
  | .name _, c => isNameChar c
  | .symbol s, c => s.goesOn c

theorem complete (w : Word) {rest : List Char} (h : ∀ c ∈ rest.head?, w.goesOn c = false) :
    Lexeme.Complete w.kind w.chars rest := by
  cases w with
  | numeral n =>
    have hstop : ∀ c ∈ rest.head?, (Decimal.isDigit c = false ∧ c ≠ '.') ∧ isLetter c = false := by
      simpa [goesOn] using h
    refine .number n.isMantissa ?_ n.signed?_chars
    obtain hx | hx := n.isExponent
    · rw [hx]
      refine .plain (fun c hc => (hstop c hc).1) fun x hx hprefix => ?_
      -- an exponent would start with a letter
      obtain ⟨e, cs, rfl, he⟩ := hx.exists_cons
      obtain ⟨rest, rfl⟩ := hprefix
      have hletter := (hstop e rfl).2
      obtain rfl | rfl := he <;> exact absurd hletter (by decide)
    · exact .scientific hx fun c hc => (hstop c hc).1.1
  | name x => exact .identifier x.isLetter x.isNameChar h
  | symbol s => exact .symbol h

theorem goesOn_gap (w : Word) {c : Char} (hc : isGap c = true) : w.goesOn c = false := by
  simp only [isGap, Bool.or_eq_true, beq_iff_eq] at hc
  cases w with
  | numeral | name => obtain ((rfl | rfl) | rfl) | rfl := hc <;> rfl
  | symbol s => obtain ((rfl | rfl) | rfl) | rfl := hc <;> cases s <;> rfl

theorem ne_nil (w : Word) : w.chars ≠ [] :=
  (@complete w [] nofun).ne_nil

theorem goesOn_symbol {w : Word} {s : Symbol} (h : w.kind.adjoins (.symbol s) = true)
    (hsigns : ¬ (w.isSign = true ∧ s.isSign = true)) :
    ∀ c ∈ s.text.toList.head?, w.goesOn c = false := by
  cases w with
  | numeral n => cases s <;> (rintro _ ⟨⟩; first | rfl | cases h)
  | name x => cases s <;> (rintro _ ⟨⟩; rfl)
  | symbol r =>
    have hsigns : ¬ (r.isSign = true ∧ s.isSign = true) := hsigns
    cases r <;> cases s <;>
      first | (cases h; done) | exact absurd (by decide) hsigns | (rintro _ ⟨⟩; rfl)

/-- The next word does not go on with a word that it may stand next to. -/
theorem goesOn_next {w v : Word} (h : w.kind.adjoins v.kind = true)
    (hsigns : ¬ (w.isSign = true ∧ v.isSign = true)) :
    ∀ c ∈ v.chars.head?, w.goesOn c = false := by
  intro c hc
  cases v with
  | symbol s => exact goesOn_symbol h hsigns c hc
  | numeral n =>
    cases w with
    | numeral | name => cases h
    | symbol s =>
      have hfirst := n.first c hc
      refine Symbol.goesOn_eq_false ?_ ?_ ?_
      · rintro rfl
        exact absurd hfirst (by decide)
      · rintro rfl
        exact absurd hfirst (by decide)
      · rintro rfl
        cases h
  | name x =>
    cases w with
    | numeral | name => cases h
    | symbol s =>
      have hletter : isLetter c = true := by
        cases hc
        exact x.isLetter
      refine Symbol.goesOn_eq_false ?_ ?_ fun _ => (isDigit_eq_false_of_isLetter hletter).1
      · rintro rfl
        exact absurd hletter (by decide)
      · rintro rfl
        exact absurd hletter (by decide)

end Word

namespace Lexeme

theorem lt_of_isDigit {c : Char} (h : Decimal.isDigit c = true) : c.toNat < 0x80 := by
  simp only [Decimal.isDigit, Bool.and_eq_true, decide_eq_true_eq, Char.le_def,
    UInt32.le_iff_toNat_le] at h
  exact Nat.lt_of_le_of_lt h.2 (by decide)

theorem lt_of_isNameChar {c : Char} (h : isNameChar c = true) : c.toNat < 0x80 := by
  simp only [isNameChar, isLetter, Bool.or_eq_true, Bool.and_eq_true, decide_eq_true_eq,
    beq_iff_eq, Char.le_def, UInt32.le_iff_toNat_le] at h
  obtain ((h | h) | h) | rfl := h
  · exact Nat.lt_of_le_of_lt h.2 (by decide)
  · exact Nat.lt_of_le_of_lt h.2 (by decide)
  · exact lt_of_isDigit h
  · decide

end Lexeme

namespace Token

theorem lt_of_isGap {c : Char} (h : isGap c = true) : c.toNat < 0x80 := by
  simp only [isGap, Bool.or_eq_true, beq_iff_eq] at h
  obtain ((rfl | rfl) | rfl) | rfl := h <;> decide

/-- Whether the character occurs in texts that are scanned to their end. -/
def isWritten (c : Char) : Bool := isGap c || isNameChar c || "+-*/%().,".toList.contains c

/-- What is scanned to its end is written in ASCII. -/
theorem lt_of_isWritten {c : Char} (h : isWritten c = true) : c.toNat < 0x80 := by
  have hsymbols : "+-*/%().,".toList.all (·.toNat < 0x80) = true := rfl
  simp only [isWritten, Bool.or_eq_true, List.contains_iff_mem] at h
  obtain (h | h) | h := h
  · exact lt_of_isGap h
  · exact Lexeme.lt_of_isNameChar h
  · exact of_decide_eq_true (List.all_eq_true.mp hsymbols c h)

theorem not_isWritten_of_le {c : Char} (h : 0x80 ≤ c.toNat) : isWritten c = false := by
  rw [Bool.eq_false_iff]
  intro hwritten
  have hlt := lt_of_isWritten hwritten
  omega

theorem isWritten_of_isGap {c : Char} (h : isGap c = true) : isWritten c = true := by
  simp [isWritten, h]

theorem isWritten_of_isNameChar {c : Char} (h : isNameChar c = true) : isWritten c = true := by
  simp [isWritten, h]

theorem isWritten_of_isDigit {c : Char} (h : Decimal.isDigit c = true) : isWritten c = true := by
  simp [isWritten, isNameChar, h]

end Token

theorem Lexeme.Exponent.isWritten {x : List Char} (h : Exponent x) :
    ∀ c ∈ x, Token.isWritten c = true :=
  h.forall_mem (List.all_eq_true.mp rfl) fun _ => isWritten_of_isDigit

theorem Word.isWritten (w : Word) : ∀ c ∈ w.chars, Token.isWritten c = true := by
  intro c hc
  cases w with
  | numeral n =>
    obtain hm | hx := List.mem_append.mp hc
    · have h := n.isMantissa.isMantissaChar c hm
      simp only [isMantissaChar, Bool.or_eq_true, beq_iff_eq] at h
      obtain h | rfl := h
      · exact isWritten_of_isDigit h
      · decide
    · obtain hnil | h := n.isExponent
      · rw [hnil] at hx
        cases hx
      · exact h.isWritten c hx
  | name x =>
    apply isWritten_of_isNameChar
    obtain rfl | hc := List.mem_cons.mp hc
    · simp [isNameChar, x.isLetter]
    · exact x.isNameChar c hc
  | symbol s =>
    revert hc
    cases s <;> simp [chars, Symbol.text] <;> rintro rfl <;> decide

namespace Spaced

theorem lt {ws : List Word} {text : List Char} (h : Spaced ws text) :
    ∀ c ∈ text, c.toNat < 0x80 := by
  induction h with
  | nil hgap => exact fun c hc => lt_of_isGap (hgap c hc)
  | @cons gap w ws text hgap _ _ ih =>
    intro c hc
    simp only [List.mem_append] at hc
    obtain hc | hc | hc := hc
    · exact lt_of_isGap (hgap c hc)
    · exact lt_of_isWritten (w.isWritten c hc)
    · exact ih c hc

/-- Words with a blank before each. -/
theorem blanks (ws : List Word) : Spaced ws (ws.flatMap fun w => ' ' :: w.chars) := by
  induction ws with
  | nil => exact .nil nofun
  | cons w ws ih =>
    have hgap : ∀ c ∈ [' '], isGap c = true := List.all_eq_true.mp rfl
    refine .cons hgap ih fun _ ⟨v, hv, _⟩ => ?_
    obtain ⟨ws, rfl⟩ := List.head?_eq_some_iff.mp hv
    exact ⟨' ', rfl, rfl⟩

theorem head? {ws : List Word} {text : List Char} (h : Spaced ws text) :
    ∀ c ∈ text.head?, isGap c = true ∨ ∃ v ∈ ws.head?, c ∈ v.chars.head? := by
  intro c hc
  cases h with
  | nil hgap => exact .inl (hgap c (List.mem_of_mem_head? hc))
  | @cons gap w ws text hgap =>
    cases gap with
    | nil =>
      obtain ⟨d, ds, hd⟩ := List.exists_cons_of_ne_nil w.ne_nil
      rw [hd] at hc
      exact .inr ⟨w, rfl, by rw [hd]; exact hc⟩
    | cons d gap =>
      cases hc
      exact .inl (hgap _ (List.mem_cons_self ..))

/-- The tokens of a text are the words that it consists of. -/
theorem exists_cut {ws : List Word} {text : List Char} (h : Spaced ws text)
    (hkinds : Adjoining (ws.map (·.kind))) (offset : Nat) :
    ∃ ts, Cut [] offset text ts ∧ ts.map (·.content) = ws.map (·.content) := by
  induction h generalizing offset with
  | nil hgap => exact ⟨[], .gap hgap, rfl⟩
  | @cons gap w ws text hgap h hsigns ih =>
    obtain ⟨hnext, hlater⟩ := hkinds
    obtain ⟨ts, hcut, hts⟩ := ih hlater (offset + byteLength gap + byteLength w.chars)
    refine ⟨_, .token hgap (w.complete fun c hc => ?_) hcut, congrArg _ hts⟩
    rw [List.append_nil] at hc
    obtain hgap | ⟨v, hv, hcv⟩ := h.head? c hc
    · exact w.goesOn_gap hgap
    · by_cases hboth : w.isSign = true ∧ v.isSign = true
      · obtain ⟨d, hd, hgap⟩ := hsigns hboth.1 ⟨v, hv, hboth.2⟩
        rw [Option.mem_unique hc hd]
        exact w.goesOn_gap hgap
      · refine Word.goesOn_next (hnext v.kind ?_) hboth c hcv
        rw [List.head?_map, Option.mem_def.mp hv]
        rfl

end Spaced

end Reckon
