import Reckon.Proofs.Lexeme

/-! What the scanner cuts from the front of a text, told by the lexeme itself and by what follows
it: a lexeme that could go on is not cut. -/
namespace Reckon
open Decimal Lexeme

namespace Lexeme

/-- A numeral with this exponent, or without one, does not go on. -/
inductive NumeralEnds : List Char → List Char → Prop where
  | plain {rest} : (∀ c ∈ rest.head?, isDigit c = false ∧ c ≠ '.') →
      (∀ x, Exponent x → ¬ x <+: rest) → NumeralEnds [] rest
  | scientific {x rest} : Exponent x → (∀ c ∈ rest.head?, isDigit c = false) → NumeralEnds x rest

theorem NumeralEnds.exponent {x rest : List Char} (h : NumeralEnds x rest) :
    x = [] ∨ Exponent x := by
  cases h with
  | plain => exact .inl rfl
  | scientific hx => exact .inr hx

theorem isMantissaChar_eq_false_iff {c : Char} :
    Token.isMantissaChar c = false ↔ isDigit c = false ∧ c ≠ '.' := by
  simp [Token.isMantissaChar]

theorem NumeralEnds.head {x rest : List Char} (h : NumeralEnds x rest) :
    ∀ c ∈ (x ++ rest).head?, Token.isMantissaChar c = false := by
  intro c hc
  rw [isMantissaChar_eq_false_iff]
  cases h with
  | plain hrest => exact hrest c hc
  | scientific hx =>
    obtain ⟨e, cs, rfl, -⟩ := hx.exists_cons
    exact Exponent.head (.inr hx) c hc

end Lexeme

/-- Whether the character would make another token out of the symbol. -/
def Symbol.goesOn : Symbol → Char → Bool
  | .plus, c => c == '+'
  | .minus, c => c == '-'
  | .dot, c => isDigit c
  | _, _ => false

namespace Token

theorem startsWithDigit_iff {cs : List Char} :
    startsWithDigit cs = true ↔ ∃ d ∈ cs.head?, isDigit d = true := by
  cases cs <;> simp [startsWithDigit]

theorem splitSignChar_mem (cs : List Char) : (splitSignChar cs).1 ∈ [[], ['+'], ['-']] := by
  unfold splitSignChar
  split <;> simp

theorem splitSignChar_of_digit {sign ds : List Char} (hs : sign ∈ [[], ['+'], ['-']])
    (hds : startsWithDigit ds = true) : splitSignChar (sign ++ ds) = (sign, ds) := by
  simp only [List.mem_cons, List.not_mem_nil, or_false] at hs
  obtain rfl | rfl | rfl := hs
  · rw [List.nil_append]
    unfold splitSignChar
    split
    · exact absurd (show isDigit '+' = true from hds) (by decide)
    · exact absurd (show isDigit '-' = true from hds) (by decide)
    · rfl
  · rfl
  · rfl

theorem startsWithDigit_append {ds : List Char} (rest : List Char) (hne : ds ≠ [])
    (hds : Digits ds) :
    startsWithDigit (ds ++ rest) = true := by
  obtain ⟨d, ds, rfl⟩ := List.exists_cons_of_ne_nil hne
  exact hds d (List.mem_cons_self ..)

private theorem splitExponent_of_exponent {x rest : List Char} (hx : Exponent x)
    (hrest : ∀ c ∈ rest.head?, isDigit c = false) : splitExponent (x ++ rest) = (x, rest) := by
  cases hx with
  | @mk e sign ds he hs hne hds =>
    have hd := startsWithDigit_append rest hne hds
    have he' : e = 'e' ∨ e = 'E' := by simpa using he
    rw [List.cons_append, List.append_assoc]
    simp only [splitExponent, splitSignChar_of_digit hs hd]
    rw [if_pos ⟨he', hd⟩, takeWhile_of_stop hds hrest, dropWhile_of_stop hds hrest]

/-- Either no exponent is at the front, or it is split off whole. -/
theorem splitExponent_cases (cs : List Char) :
    splitExponent cs = ([], cs) ∧ (∀ x, Exponent x → ¬ x <+: cs) ∨
      ∃ x rest, splitExponent cs = (x, rest) ∧ Exponent x ∧
        ∀ c ∈ rest.head?, isDigit c = false := by
  cases cs with
  | nil =>
    refine .inl ⟨rfl, fun x hx h => ?_⟩
    obtain ⟨e, cs, rfl, -⟩ := hx.exists_cons
    exact absurd h (by simp)
  | cons e cs =>
    simp only [splitExponent]
    split
    · next h =>
      obtain ⟨d, hd, hdigit⟩ := startsWithDigit_iff.mp h.2
      refine .inr ⟨_, _, rfl, .mk (by simpa using h.1) (splitSignChar_mem cs) ?_ ?_,
        head?_dropWhile_eq_false _ _⟩
      · obtain ⟨ds, hds⟩ := List.head?_eq_some_iff.mp hd
        rw [hds, List.takeWhile_cons_of_pos hdigit]
        exact List.cons_ne_nil _ _
      · exact List.all_eq_true.mp List.all_takeWhile
    · next h =>
      refine .inl ⟨rfl, fun x hx hprefix => h ?_⟩
      cases hx with
      | @mk e' sign ds he hs hne hds =>
        obtain ⟨rest, hrest⟩ := hprefix
        rw [List.cons_append, List.append_assoc] at hrest
        obtain ⟨rfl, rfl⟩ := List.cons.inj hrest
        have hd := startsWithDigit_append rest hne hds
        rw [splitSignChar_of_digit hs hd]
        exact ⟨by simpa using he, hd⟩

private theorem splitExponent_of_none {cs : List Char} (h : ∀ x, Exponent x → ¬ x <+: cs) :
    splitExponent cs = ([], cs) := by
  obtain ⟨hcs, -⟩ | ⟨x, rest, hcs, hx, -⟩ := splitExponent_cases cs
  · exact hcs
  · have hprefix : x <+: cs := ⟨rest, by rw [← splitExponent_append cs, hcs]⟩
    exact absurd hprefix (h x hx)

private theorem splitExponent_of_ends {x rest : List Char} (h : NumeralEnds x rest) :
    splitExponent (x ++ rest) = (x, rest) := by
  cases h with
  | plain _ hnone => exact splitExponent_of_none hnone
  | scientific hx hrest => exact splitExponent_of_exponent hx hrest

/-- A character that starts no token. -/
def IsStray (c : Char) : Prop :=
  isDigit c = false ∧ isLetter c = false ∧ c ∉ "+-*/%().,".toList

/-- A lexeme is cut whole when this follows it. -/
def Form.Ends : Form → List Char → Prop
  | .numeral run x, rest =>
    StartsNumeral run ∧ (∀ c ∈ run, isMantissaChar c = true) ∧ NumeralEnds x rest
  | .name cs, rest => (∃ c ds, cs = c :: ds ∧ isLetter c = true ∧ ∀ d ∈ ds, isNameChar d = true) ∧
    ∀ c ∈ rest.head?, isNameChar c = false
  | .symbol s, rest => ∀ c ∈ rest.head?, s.goesOn c = false
  | .stray c, _ => IsStray c

theorem ends_munch_numeral {c : Char} {cs : List Char}
    (h : isDigit c = true ∨ c = '.' ∧ startsWithDigit cs = true) :
    (Form.numeral (c :: cs.takeWhile isMantissaChar)
      (splitExponent (cs.dropWhile isMantissaChar)).1).Ends
        (splitExponent (cs.dropWhile isMantissaChar)).2 := by
  refine ⟨⟨c, _, rfl, ?_⟩, ?_, ?_⟩
  · refine h.imp_right fun ⟨hc, hcs⟩ => ⟨hc, ?_⟩
    obtain ⟨d, hd, hdigit⟩ := startsWithDigit_iff.mp hcs
    obtain ⟨ds, rfl⟩ := List.head?_eq_some_iff.mp hd
    rw [List.takeWhile_cons_of_pos (by simp [isMantissaChar, hdigit])]
    exact ⟨d, rfl, hdigit⟩
  · intro d hd
    obtain rfl | hd := List.mem_cons.mp hd
    · obtain hc | ⟨rfl, -⟩ := h
      · simp [isMantissaChar, hc]
      · rfl
    · exact List.all_eq_true.mp List.all_takeWhile d hd
  · obtain ⟨hsplit, hnone⟩ | ⟨x, rest, hsplit, hx, hrest⟩ :=
      splitExponent_cases (cs.dropWhile isMantissaChar)
    · rw [hsplit]
      refine .plain (fun d hd => ?_) hnone
      exact isMantissaChar_eq_false_iff.mp (head?_dropWhile_eq_false _ _ d hd)
    · rw [hsplit]
      exact .scientific hx hrest

theorem symbolAt?_ends {c : Char} {cs rest : List Char} {s : Symbol}
    (h : symbolAt? c cs = some (s, rest)) (hdot : c = '.' → startsWithDigit cs = false) :
    ∀ d ∈ rest.head?, s.goesOn d = false := by
  unfold symbolAt? at h
  split at h
  case h_3 hne =>
    cases h
    rintro d hd
    obtain ⟨ds, rfl⟩ := List.head?_eq_some_iff.mp hd
    exact beq_eq_false_iff_ne.mpr fun hplus => hne ds (hplus ▸ rfl)
  case h_4 hne =>
    cases h
    rintro d hd
    obtain ⟨ds, rfl⟩ := List.head?_eq_some_iff.mp hd
    exact beq_eq_false_iff_ne.mpr fun hminus => hne ds (hminus ▸ rfl)
  case h_10 =>
    cases h
    intro d hd
    rw [← Bool.not_eq_true]
    exact fun hdigit => absurd (startsWithDigit_iff.mpr ⟨d, hd, hdigit⟩) (by simp [hdot])
  all_goals cases h <;> exact fun _ _ => rfl

theorem symbolAt?_of_ends {c : Char} {cs rest : List Char} {s : Symbol}
    (hends : ∀ d ∈ rest.head?, s.goesOn d = false) (h : s.text.toList ++ rest = c :: cs) :
    symbolAt? c cs = some (s, rest) := by
  cases s <;> simp [Symbol.text] at h <;> obtain ⟨rfl, rfl⟩ := h
  case plus =>
    cases rest with
    | nil => rfl
    | cons d ds =>
      have hd : d ≠ '+' := beq_eq_false_iff_ne.mp (hends d rfl)
      simp [symbolAt?, hd]
  case minus =>
    cases rest with
    | nil => rfl
    | cons d ds =>
      have hd : d ≠ '-' := beq_eq_false_iff_ne.mp (hends d rfl)
      simp [symbolAt?, hd]
  all_goals rfl

theorem symbolAt?_eq_none_iff {c : Char} {cs : List Char} :
    symbolAt? c cs = none ↔ c ∉ "+-*/%().,".toList := by
  unfold symbolAt?
  split <;> simp_all

/-- Nothing could go on with a lexeme that is cut. -/
theorem ends_munch (c : Char) (cs : List Char) : (munch c cs).1.Ends (munch c cs).2 := by
  unfold munch
  split
  · next h => exact ends_munch_numeral (by simpa using h)
  · next h =>
    have hstart : isDigit c = false ∧ (c = '.' → startsWithDigit cs = false) := by simpa using h
    split
    · next hletter =>
      refine ⟨⟨c, _, rfl, hletter, List.all_eq_true.mp List.all_takeWhile⟩, ?_⟩
      exact head?_dropWhile_eq_false _ _
    · next hletter =>
      split
      · next s rest hs =>
        exact symbolAt?_ends hs hstart.2
      · next hs =>
        exact ⟨hstart.1, by simpa using hletter, symbolAt?_eq_none_iff.mp hs⟩

theorem munch_numeral {run x rest cs : List Char} {c : Char} (hstart : StartsNumeral run)
    (hrun : ∀ d ∈ run, isMantissaChar d = true) (hends : NumeralEnds x rest)
    (h : run ++ (x ++ rest) = c :: cs) : munch c cs = (.numeral run x, rest) := by
  obtain ⟨d, ds, rfl, hd⟩ := hstart
  rw [List.cons_append] at h
  obtain ⟨rfl, rfl⟩ := List.cons.inj h
  have hds : ∀ c ∈ ds, isMantissaChar c = true := fun c hc => hrun c (List.mem_cons_of_mem _ hc)
  have hcond : (isDigit d || (d == '.' && startsWithDigit (ds ++ (x ++ rest)))) = true := by
    obtain hd | ⟨rfl, c, hc, hdigit⟩ := hd
    · rw [hd]
      rfl
    · obtain ⟨ds, rfl⟩ := List.head?_eq_some_iff.mp hc
      exact hdigit
  unfold munch
  rw [if_pos hcond, takeWhile_of_stop hds hends.head, dropWhile_of_stop hds hends.head,
    splitExponent_of_ends hends]

theorem isDigit_eq_false_of_isLetter {c : Char} (h : isLetter c = true) :
    isDigit c = false ∧ c ≠ '.' := by
  constructor
  · rw [Bool.eq_false_iff]
    intro hdigit
    simp [isLetter, isDigit, Char.le_def, UInt32.le_iff_toNat_le] at h hdigit
    omega
  · rintro rfl
    exact absurd h (by decide)

theorem munch_name {c : Char} {ds rest : List Char} (hc : isLetter c = true)
    (hds : ∀ d ∈ ds, isNameChar d = true) (hrest : ∀ d ∈ rest.head?, isNameChar d = false) :
    munch c (ds ++ rest) = (.name (c :: ds), rest) := by
  obtain ⟨hdigit, hpoint⟩ := isDigit_eq_false_of_isLetter hc
  unfold munch
  rw [if_neg (by simp [hdigit, hpoint]), if_pos hc, takeWhile_of_stop hds hrest,
    dropWhile_of_stop hds hrest]

theorem munch_stray {c : Char} (h : IsStray c) (cs : List Char) : munch c cs = (.stray c, cs) := by
  obtain ⟨hdigit, hletter, hsymbol⟩ := h
  have hpoint : c ≠ '.' := by
    rintro rfl
    exact hsymbol (by decide)
  unfold munch
  rw [if_neg (by simp [hdigit, hpoint]), if_neg (by simp [hletter]),
    symbolAt?_eq_none_iff.mpr hsymbol]

theorem munch_symbol {s : Symbol} {rest cs : List Char} {c : Char}
    (hends : ∀ d ∈ rest.head?, s.goesOn d = false) (h : s.text.toList ++ rest = c :: cs) :
    munch c cs = (.symbol s, rest) := by
  have hdot : c = '.' → startsWithDigit cs = false := by
    rintro rfl
    rw [← Bool.not_eq_true, startsWithDigit_iff]
    rintro ⟨d, hd, hdigit⟩
    cases s <;> simp [Symbol.text] at h
    subst h
    have hnot : isDigit d = false := hends d hd
    rw [hnot] at hdigit
    cases hdigit
  have hc : isDigit c = false ∧ isLetter c = false := by
    cases s <;> simp [Symbol.text] at h <;> obtain ⟨rfl, -⟩ := h <;> decide
  unfold munch
  rw [if_neg (by simpa [hc.1] using hdot), if_neg (by simp [hc.2]), symbolAt?_of_ends hends h]

/-- The scanner cuts a lexeme exactly where it is whole. -/
theorem munch_eq_iff {c : Char} {cs rest : List Char} {form : Form} :
    munch c cs = (form, rest) ↔ form.chars ++ rest = c :: cs ∧ form.Ends rest := by
  constructor
  · intro h
    have happend := munch_append c cs
    have hends := ends_munch c cs
    rw [h] at happend hends
    exact ⟨happend, hends⟩
  · rintro ⟨happend, hends⟩
    cases form with
    | numeral run x =>
      obtain ⟨hstart, hrun, hx⟩ := hends
      exact munch_numeral hstart hrun hx (by rw [← happend, Form.chars, List.append_assoc])
    | name cs' =>
      obtain ⟨⟨d, ds, rfl, hd, hds⟩, hrest⟩ := hends
      obtain ⟨rfl, rfl⟩ := List.cons.inj happend
      exact munch_name hd hds hrest
    | symbol s => exact munch_symbol hends happend
    | stray d =>
      obtain ⟨rfl, rfl⟩ := List.cons.inj happend
      exact munch_stray hends _

end Token

end Reckon
