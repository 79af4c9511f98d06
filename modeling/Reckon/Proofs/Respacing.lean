import Reckon.Proofs.Counterpart
import Reckon.Proofs.Slice

/-! Texts of the same lexemes. With gaps between them lexemes are cut apart whatever they are, also
where they are no expression, so that the gaps of a text do not matter for its outcome. -/
namespace Reckon
open Text Token

/-- Complete lexemes are words. -/
theorem Lexeme.Complete.exists_word {kind : TokenKind} {lexeme rest : List Char}
    (h : Lexeme.Complete kind lexeme rest) : ∃ w : Word, w.kind = kind ∧ w.chars = lexeme := by
  cases h with
  | @number m x v _ hm hx hv =>
    let n : Literal := ⟨m, x, hm, hx.exponent⟩
    have hvalue : n.value = v := Option.some.inj (n.signed?_chars.symm.trans hv)
    exact ⟨.numeral n, congrArg TokenKind.number hvalue, rfl⟩
  | @identifier c cs _ hc hcs => exact ⟨.name ⟨c, cs, hc, hcs⟩, rfl, rfl⟩
  | @symbol s => exact ⟨.symbol s, rfl, rfl⟩

namespace Cut
variable {after text : List Char} {offset : Nat} {ts : List Token}

theorem exists_word (h : Cut after offset text ts) :
    ∀ t ∈ ts, ∃ w : Word, w.content = t.content := by
  induction h with
  | gap => exact nofun
  | token _ hlexeme _ ih =>
    intro t ht
    obtain rfl | ht := List.mem_cons.mp ht
    · obtain ⟨w, hkind, hchars⟩ := hlexeme.exists_word
      exact ⟨w, by rw [Word.content, hkind, hchars]; rfl⟩
    · exact ih t ht

theorem isWritten (h : Cut after offset text ts) : ∀ c ∈ text, Token.isWritten c = true := by
  induction h with
  | gap hgap => exact fun c hc => isWritten_of_isGap (hgap c hc)
  | token hgap hlexeme _ ih =>
    obtain ⟨w, -, hchars⟩ := hlexeme.exists_word
    intro c hc
    simp only [List.mem_append] at hc
    obtain hc | hc | hc := hc
    · exact isWritten_of_isGap (hgap c hc)
    · exact w.isWritten c (hchars ▸ hc)
    · exact ih c hc

theorem normalize_eq (h : Cut after offset text ts) : normalize text = text :=
  normalize_of_below fun c hc => Nat.lt_trans (lt_of_isWritten (h.isWritten c hc)) (by decide)

end Cut

/-- A text that is scanned as it stands is its own normal form. -/
theorem normalize_of_tokenize {text : List Char} {ts : List Token} (h : tokenize text = .ok ts) :
    normalize text = text := (tokenizeFrom_eq_ok_iff.mp h).normalize_eq

/-- The lexemes of the tokens, with a gap behind each. Only behind the last one it may be empty. -/
inductive Apart : List Token → List Char → Prop where
  | nil : Apart [] []
  | cons {t ts gap text} : (∀ c ∈ gap, isGap c = true) → (ts ≠ [] → gap ≠ []) → Apart ts text →
      Apart (t :: ts) (t.lexeme.toList ++ (gap ++ text))

namespace Apart

/-- Lexemes apart are cut as they are. -/
theorem exists_cut {ts : List Token} {body : List Char} (h : Apart ts body)
    (hwords : ∀ t ∈ ts, ∃ w : Word, w.content = t.content) {gap : List Char}
    (hgap : ∀ c ∈ gap, isGap c = true) (offset : Nat) :
    ∃ us, Cut [] offset (gap ++ body) us ∧ us.map (·.content) = ts.map (·.content) := by
  induction h generalizing gap offset with
  | nil =>
    rw [List.append_nil]
    exact ⟨[], .gap hgap, rfl⟩
  | @cons t ts gap' text hgap' hne h ih =>
    obtain ⟨w, hw⟩ := hwords t (List.mem_cons_self ..)
    obtain ⟨hkind, hlexeme⟩ := Prod.mk.inj hw
    have hchars : t.lexeme.toList = w.chars := by rw [← hlexeme, String.toList_ofList]
    have hstop : ∀ c ∈ (gap' ++ text).head?, w.goesOn c = false := by
      intro c hc
      cases gap' with
      | cons d gap' =>
        obtain rfl : d = c := Option.some.inj hc
        exact w.goesOn_gap (hgap' d (List.mem_cons_self ..))
      | nil =>
        have hts : ts = [] := Decidable.byContradiction fun hts => hne hts rfl
        subst hts
        cases h
        cases hc
    have hcomplete : Lexeme.Complete t.kind t.lexeme.toList ((gap' ++ text) ++ []) := by
      rw [List.append_nil, hchars, ← hkind]
      exact w.complete hstop
    obtain ⟨us, hcut, hus⟩ := ih (fun u hu => hwords u (List.mem_cons_of_mem _ hu)) hgap'
      (offset + byteLength gap + byteLength t.lexeme.toList)
    refine ⟨_, .token hgap hcomplete hcut, ?_⟩
    rw [List.map_cons, List.map_cons, hus, content, String.ofList_toList]
    rfl

end Apart

/-- The outcome of a source that is scanned. -/
theorem evaluate_of_tokenize {source : String} {limits : Limits} {ts : List Token}
    (hlength : byteLength source.toList ≤ limits.maxSourceLength)
    (hts : tokenize (normalize source.toList) = .ok ts) (b : Bindings) :
    evaluate source b limits = Expression.ofTokens? limits ts >>= fun x => x.value b := by
  rw [evaluate, validate_of_short hlength, hts]
  rfl

/-- The lexemes of a source may be spaced in any other way. They are scanned into the same tokens,
which have the same value, or fail for the same reason and at the same tokens. -/
theorem evaluate_apart (source respaced : String) (ts : List Token) (gap body : List Char)
    (hsource : tokenize (normalize source.toList) = .ok ts)
    (hgap : ∀ c ∈ gap, isGap c = true) (hbody : Apart ts body)
    (hrespaced : respaced.toList = gap ++ body) :
    ∃ us, tokenize respaced.toList = .ok us ∧ us.map (·.content) = ts.map (·.content) ∧
      ∀ (b : Bindings) (limits : Limits),
        byteLength source.toList ≤ limits.maxSourceLength →
        byteLength respaced.toList ≤ limits.maxSourceLength →
        SameOutcome ts us (evaluate source b limits) (evaluate respaced b limits) := by
  have hwords := (tokenizeFrom_eq_ok_iff.mp hsource).exists_word
  obtain ⟨us, hcut, hus⟩ := hbody.exists_cut hwords hgap 0
  rw [← hrespaced] at hcut
  have htokenize : tokenize respaced.toList = .ok us := tokenizeFrom_of_cut hcut rfl
  refine ⟨us, htokenize, hus, fun b limits hlength hlength' => ?_⟩
  rw [evaluate_of_tokenize hlength hsource,
    evaluate_of_tokenize hlength' (hcut.normalize_eq.symm ▸ htokenize)]
  exact sameOutcome_of_content hus limits b

/-- The two signs of `1- -x` may be further apart. -/
theorem evaluate_apart_signs : ∃ ts us, tokenize "1- -x".toList = .ok ts ∧
    tokenize " 1 -\t- x".toList = .ok us ∧ us.map (·.content) = ts.map (·.content) ∧
      SameOutcome ts us (evaluate "1- -x" Bindings.empty)
        (evaluate " 1 -\t- x" Bindings.empty) := by
  have hgap : ∀ c ∈ [' '], isGap c = true := List.all_eq_true.mp rfl
  have htab : ∀ c ∈ ['\t'], isGap c = true := List.all_eq_true.mp rfl
  let one : Word := .numeral ⟨['1'], [], .whole (.nonzero rfl (by decide) nofun), .inl rfl⟩
  let minus : Word := .symbol .minus
  let x : Word := .name ⟨'x', [], rfl, nofun⟩
  have hone : Lexeme.Complete one.kind ['1'] (['-', ' ', '-', 'x'] ++ []) :=
    one.complete (by rintro _ ⟨⟩; rfl)
  have hminus : Lexeme.Complete minus.kind ['-'] ([' ', '-', 'x'] ++ []) :=
    minus.complete (by rintro _ ⟨⟩; rfl)
  have hsign : Lexeme.Complete minus.kind ['-'] (['x'] ++ []) :=
    minus.complete (by rintro _ ⟨⟩; rfl)
  have hx : Lexeme.Complete x.kind ['x'] ([] ++ []) := x.complete nofun
  let ts : List Token := [⟨one.kind, "1", ⟨0, 1⟩⟩, ⟨.symbol .minus, "-", ⟨1, 2⟩⟩,
    ⟨.symbol .minus, "-", ⟨3, 4⟩⟩, ⟨.identifier "x", "x", ⟨4, 5⟩⟩]
  have hcut : Cut [] 0 "1- -x".toList ts :=
    .without_gap hone (.without_gap hminus (.token hgap hsign (.without_gap hx (.gap nofun))))
  have htokens : tokenize "1- -x".toList = .ok ts := tokenizeFrom_of_cut hcut rfl
  have hlast : Apart (ts.drop 3) _ := @Apart.cons _ _ [] _ nofun nofun .nil
  have hbody : Apart ts _ := .cons hgap nofun (.cons htab nofun (.cons hgap nofun hlast))
  obtain ⟨us, hus, hcontent, houtcome⟩ :=
    evaluate_apart "1- -x" " 1 -\t- x" ts [' '] _ htokens hgap hbody (by decide)
  exact ⟨ts, us, htokens, hus, hcontent, houtcome Bindings.empty {} (by decide) (by decide)⟩

end Reckon
