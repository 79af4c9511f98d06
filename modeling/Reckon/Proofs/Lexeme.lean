import Reckon.Token.Scan

/-! The shapes of numerals, apart from the scanner that finds them:

    Mantissa := (0|[1-9][0-9]*)(\.[0-9]*)? | \.[0-9]+
    Exponent := [eE][+-]?[0-9]+

The scanner's check of a mantissa accepts just these, and every numeral reads as a double. -/
namespace Reckon

theorem takeWhile_of_stop {α : Type} {p : α → Bool} {w rest : List α} (hw : ∀ c ∈ w, p c = true)
    (hrest : ∀ c ∈ rest.head?, p c = false) : (w ++ rest).takeWhile p = w := by
  rw [List.takeWhile_append_of_pos hw]
  cases rest with
  | nil => simp
  | cons c rest => simp [hrest c rfl]

theorem dropWhile_of_stop {α : Type} {p : α → Bool} {w rest : List α} (hw : ∀ c ∈ w, p c = true)
    (hrest : ∀ c ∈ rest.head?, p c = false) : (w ++ rest).dropWhile p = rest := by
  rw [List.dropWhile_append_of_pos hw]
  cases rest with
  | nil => rfl
  | cons c rest => simp [hrest c rfl]

theorem head?_dropWhile_eq_false {α : Type} (p : α → Bool) (cs : List α) :
    ∀ c ∈ (cs.dropWhile p).head?, p c = false := by
  intro c hc
  have h := List.head?_dropWhile_not p cs
  rw [hc] at h
  exact h

namespace Lexeme
open Decimal

def Digits (cs : List Char) : Prop := ∀ c ∈ cs, isDigit c = true

inductive Whole : List Char → Prop where
  | zero : Whole ['0']
  | nonzero {d ds} : isDigit d = true → d ≠ '0' → Digits ds → Whole (d :: ds)

inductive Mantissa : List Char → Prop where
  | whole {ds} : Whole ds → Mantissa ds
  | pointed {ds fs} : Whole ds → Digits fs → Mantissa (ds ++ '.' :: fs)
  | fraction {fs} : fs ≠ [] → Digits fs → Mantissa ('.' :: fs)

inductive Exponent : List Char → Prop where
  | mk {e sign ds} : e ∈ ['e', 'E'] → sign ∈ [[], ['+'], ['-']] → ds ≠ [] → Digits ds →
      Exponent (e :: (sign ++ ds))

theorem ne_point_of_isDigit {c : Char} (h : isDigit c = true) : c ≠ '.' := by
  rintro rfl
  exact absurd h (by decide)

theorem Whole.digits {ds : List Char} (h : Whole ds) : Digits ds := by
  cases h with
  | zero =>
    intro c hc
    rw [List.mem_singleton.mp hc]
    rfl
  | nonzero hd _ hds =>
    intro c hc
    obtain rfl | hc := List.mem_cons.mp hc
    · exact hd
    · exact hds c hc

theorem Whole.point_not_mem {ds : List Char} (h : Whole ds) : '.' ∉ ds :=
  fun hmem => ne_point_of_isDigit (h.digits _ hmem) rfl

theorem Whole.ne_nil {ds : List Char} (h : Whole ds) : ds ≠ [] := by
  cases h <;> nofun

theorem whole_cons_iff {d : Char} {ds : List Char} :
    Whole (d :: ds) ↔ d = '0' ∧ ds = [] ∨ d ≠ '0' ∧ isDigit d = true ∧ Digits ds := by
  constructor
  · intro h
    cases h with
    | zero => exact .inl ⟨rfl, rfl⟩
    | nonzero hd hne hds => exact .inr ⟨hne, hd, hds⟩
  · rintro (⟨rfl, rfl⟩ | ⟨hne, hd, hds⟩)
    · exact .zero
    · exact .nonzero hd hne hds

/-- The check looks at what stands before the first point and at what stands behind it. -/
theorem isMantissa_append {w tail : List Char} (hw : '.' ∉ w) (htail : ∀ c ∈ tail.head?, c = '.') :
    Token.isMantissa (w ++ tail) = true ↔
      (w = [] ∧ tail.drop 1 ≠ [] ∨ Whole w) ∧ Digits (tail.drop 1) := by
  have hmem : ∀ c ∈ w, (c != '.') = true := by
    intro c hc
    rw [bne_iff_ne]
    rintro rfl
    exact hw hc
  have hstop : ∀ c ∈ tail.head?, (c != '.') = false := by
    intro c hc
    simp [htail c hc]
  unfold Token.isMantissa
  rw [takeWhile_of_stop hmem hstop, dropWhile_of_stop hmem hstop]
  cases w with
  | nil =>
    have hnil : ¬ Whole [] := fun h => h.ne_nil rfl
    simp [Digits, hnil]
  | cons d ds =>
    rw [whole_cons_iff]
    dsimp only
    split
    · next h => cases h
    · next h =>
      cases h
      simp [Digits]
    · next hne h =>
      cases h
      have hzero : ¬ (d = '0' ∧ ds = []) := fun h => hne h.1 h.2
      simp [Digits, hzero, and_assoc]

theorem isMantissa_iff {cs : List Char} : Token.isMantissa cs = true ↔ Mantissa cs := by
  constructor
  · intro h
    have hpoint : '.' ∉ cs.takeWhile (· != '.') := fun hmem => by
      have h := List.all_eq_true.mp List.all_takeWhile _ hmem
      exact absurd h (by decide)
    have hstop : ∀ c ∈ (cs.dropWhile (· != '.')).head?, c = '.' := fun c hc => by
      simpa using head?_dropWhile_eq_false (· != '.') cs c hc
    rw [← List.takeWhile_append_dropWhile (p := (· != '.')) (l := cs)] at h ⊢
    generalize cs.takeWhile (· != '.') = w, cs.dropWhile (· != '.') = tail at *
    obtain ⟨hw, htail⟩ := (isMantissa_append hpoint hstop).mp h
    cases tail with
    | nil =>
      rw [List.append_nil]
      obtain ⟨-, hne⟩ | hw := hw
      · exact absurd rfl hne
      · exact .whole hw
    | cons c fs =>
      obtain rfl := hstop c rfl
      obtain ⟨rfl, hne⟩ | hw := hw
      · exact .fraction hne htail
      · exact .pointed hw htail
  · intro h
    cases h with
    | whole hw =>
      rw [← List.append_nil cs]
      exact (isMantissa_append hw.point_not_mem (by simp)).mpr ⟨.inr hw, nofun⟩
    | pointed hw hfs =>
      exact (isMantissa_append hw.point_not_mem (by simp)).mpr ⟨.inr hw, hfs⟩
    | @fraction fs hne hfs =>
      rw [← List.nil_append ('.' :: fs)]
      exact (isMantissa_append (by simp) (by simp)).mpr ⟨.inl ⟨rfl, hne⟩, hfs⟩

theorem Exponent.exists_cons {x : List Char} (h : Exponent x) :
    ∃ e cs, x = e :: cs ∧ (e = 'e' ∨ e = 'E') := by
  obtain ⟨he, -, -, -⟩ := h
  simp only [List.mem_cons, List.not_mem_nil, or_false] at he
  exact ⟨_, _, rfl, he⟩

theorem Exponent.head {x : List Char} (h : x = [] ∨ Exponent x) :
    ∀ c ∈ x.head?, isDigit c = false ∧ c ≠ '.' := by
  obtain rfl | h := h
  · simp
  · obtain ⟨e, cs, rfl, rfl | rfl⟩ := h.exists_cons
    · rintro _ ⟨⟩
      decide
    · rintro _ ⟨⟩
      decide

/-- What holds of the marks of an exponent and of digits holds of all its characters. -/
theorem Exponent.forall_mem {x : List Char} {P : Char → Prop} (h : Exponent x)
    (hmarks : ∀ c ∈ ['e', 'E', '+', '-'], P c) (hdigits : ∀ c, isDigit c = true → P c) :
    ∀ c ∈ x, P c := by
  obtain ⟨he, hsign, -, hds⟩ := h
  simp only [List.mem_cons, List.not_mem_nil, or_false] at he hsign
  intro c hc
  obtain rfl | hc := List.mem_cons.mp hc
  · obtain rfl | rfl := he <;> exact hmarks _ (by decide)
  · obtain hc | hc := List.mem_append.mp hc
    · obtain rfl | rfl | rfl := hsign
      · cases hc
      · exact List.mem_singleton.mp hc ▸ hmarks '+' (by decide)
      · exact List.mem_singleton.mp hc ▸ hmarks '-' (by decide)
    · exact hdigits c (hds c hc)

theorem exists_exponentValue? {sign ds : List Char} (hs : sign ∈ [[], ['+'], ['-']])
    (hne : ds ≠ []) (hds : Digits ds) : ∃ n, exponentValue? (sign ++ ds) = some n := by
  have hall : ds.all isDigit = true := List.all_eq_true.mpr hds
  have hsplit : (splitSign (sign ++ ds)).2 = ds := by
    simp only [List.mem_cons, List.not_mem_nil, or_false] at hs
    obtain rfl | rfl | rfl := hs
    · cases ds with
      | nil => rfl
      | cons d ds =>
        have hd := hds d (List.mem_cons_self ..)
        rw [List.nil_append]
        unfold splitSign
        split
        · next h => cases h; exact absurd hd (by decide)
        · next h => cases h; exact absurd hd (by decide)
        · rfl
    · rfl
    · rfl
  unfold exponentValue?
  dsimp only
  rw [hsplit, if_pos ⟨hne, hall⟩]
  exact ⟨_, rfl⟩

theorem splitFraction_of_head {x : List Char} (h : ∀ c ∈ x.head?, c ≠ '.') :
    splitFraction x = ([], x) := by
  unfold splitFraction
  split
  · exact absurd rfl (h '.' rfl)
  · rfl

theorem exists_ofChars?_append {ds fs tail x : List Char} (hds : Digits ds)
    (htail : ∀ c ∈ tail.head?, isDigit c = false) (hsplit : splitFraction tail = (fs, x))
    (hne : ¬ (ds = [] ∧ fs = [])) (hx : x = [] ∨ Exponent x) :
    ∃ n, Numeral.ofChars? (ds ++ tail) = some n := by
  unfold Numeral.ofChars?
  rw [takeWhile_of_stop hds htail, dropWhile_of_stop hds htail, hsplit]
  dsimp only
  rw [if_neg hne]
  obtain rfl | hx := hx
  · exact ⟨_, rfl⟩
  · cases hx with
    | @mk e sign es he hs hne hes =>
      obtain ⟨n, hn⟩ := exists_exponentValue? hs hne hes
      have he' : e = 'e' ∨ e = 'E' := by simpa using he
      dsimp only
      rw [if_pos he', hn]
      exact ⟨_, rfl⟩

theorem exists_ofChars? {m x : List Char} (hm : Mantissa m) (hx : x = [] ∨ Exponent x) :
    ∃ n, Numeral.ofChars? (m ++ x) = some n := by
  have hdigit : ∀ c ∈ x.head?, isDigit c = false := fun c hc => (Exponent.head hx c hc).1
  have hpoint : ∀ c ∈ x.head?, c ≠ '.' := fun c hc => (Exponent.head hx c hc).2
  have hsplit (fs : List Char) (hfs : Digits fs) : splitFraction ('.' :: (fs ++ x)) = (fs, x) := by
    rw [splitFraction, takeWhile_of_stop hfs hdigit, dropWhile_of_stop hfs hdigit]
  have hstop (cs : List Char) : ∀ c ∈ ('.' :: cs).head?, isDigit c = false := by
    rintro _ ⟨⟩
    rfl
  cases hm with
  | whole hw =>
    exact exists_ofChars?_append hw.digits hdigit (splitFraction_of_head hpoint)
      (fun h => hw.ne_nil h.1) hx
  | @pointed ds fs hw hfs =>
    rw [List.append_assoc, List.cons_append]
    exact exists_ofChars?_append hw.digits (hstop _) (hsplit fs hfs) (fun h => hw.ne_nil h.1) hx
  | @fraction fs hne hfs =>
    have hnil : Digits [] := nofun
    show ∃ n, Numeral.ofChars? ([] ++ '.' :: (fs ++ x)) = some n
    exact exists_ofChars?_append hnil (hstop _) (hsplit fs hfs) (fun h => hne h.2) hx

/-- A digit comes first, or a point and a digit. -/
def StartsNumeral (run : List Char) : Prop :=
  ∃ c cs, run = c :: cs ∧ (isDigit c = true ∨ c = '.' ∧ ∃ d ∈ cs.head?, isDigit d = true)

theorem Mantissa.startsNumeral {m : List Char} (h : Mantissa m) : StartsNumeral m := by
  have hwhole {ds : List Char} (hw : Whole ds) : ∃ c cs, ds = c :: cs ∧ isDigit c = true := by
    obtain ⟨c, cs, rfl⟩ := List.exists_cons_of_ne_nil hw.ne_nil
    exact ⟨c, cs, rfl, hw.digits c (List.mem_cons_self ..)⟩
  cases h with
  | whole hw =>
    obtain ⟨c, cs, rfl, hc⟩ := hwhole hw
    exact ⟨c, cs, rfl, .inl hc⟩
  | pointed hw =>
    obtain ⟨c, cs, rfl, hc⟩ := hwhole hw
    exact ⟨c, _, rfl, .inl hc⟩
  | fraction hne hfs =>
    obtain ⟨d, ds, rfl⟩ := List.exists_cons_of_ne_nil hne
    exact ⟨'.', d :: ds, rfl, .inr ⟨rfl, d, rfl, hfs d (List.mem_cons_self ..)⟩⟩

theorem Mantissa.isMantissaChar {m : List Char} (h : Mantissa m) :
    ∀ c ∈ m, Token.isMantissaChar c = true := by
  have hdigits {ds : List Char} (hds : Digits ds) : ∀ c ∈ ds, Token.isMantissaChar c = true := by
    intro c hc
    simp [Token.isMantissaChar, hds c hc]
  cases h with
  | whole hw => exact hdigits hw.digits
  | pointed hw hfs =>
    intro c hc
    obtain hc | hc := List.mem_append.mp hc
    · exact hdigits hw.digits c hc
    · obtain rfl | hc := List.mem_cons.mp hc
      · rfl
      · exact hdigits hfs c hc
  | fraction _ hfs =>
    intro c hc
    obtain rfl | hc := List.mem_cons.mp hc
    · rfl
    · exact hdigits hfs c hc

/-- No sign stands before a mantissa. -/
theorem Mantissa.signed?_eq {m : List Char} (h : Mantissa m) (x : List Char) :
    signed? (m ++ x) = (Numeral.ofChars? (m ++ x)).map (·.toFloat false) := by
  obtain ⟨c, cs, rfl, hc⟩ := h.startsNumeral
  have hsplit : splitSign (c :: (cs ++ x)) = (false, c :: (cs ++ x)) := by
    unfold splitSign
    split
    · next hs =>
      cases hs
      obtain hc | ⟨hc, -⟩ := hc <;> exact absurd hc (by decide)
    · next hs =>
      cases hs
      obtain hc | ⟨hc, -⟩ := hc <;> exact absurd hc (by decide)
    · rfl
  rw [List.cons_append]
  unfold signed?
  rw [hsplit]

/-- Every numeral reads as a double. -/
theorem Mantissa.exists_signed? {m x : List Char} (hm : Mantissa m) (hx : x = [] ∨ Exponent x) :
    ∃ v, signed? (m ++ x) = some v := by
  obtain ⟨n, hn⟩ := exists_ofChars? hm hx
  exact ⟨_, by rw [hm.signed?_eq, hn]; rfl⟩

end Lexeme

end Reckon
