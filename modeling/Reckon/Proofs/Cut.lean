import Reckon.Proofs.Munch

/-! The scan as a relation: a text is cut from the left into gaps and complete lexemes, up to its
end or to a place where there is neither. -/
namespace Reckon
open Decimal Text Token

namespace Lexeme

/-- A lexeme that is a whole token of the kind where this follows it. -/
inductive Complete : TokenKind → List Char → List Char → Prop where
  | number {m x v rest} : Mantissa m → NumeralEnds x rest → signed? (m ++ x) = some v →
      Complete (.number v) (m ++ x) rest
  | identifier {c cs rest} : isLetter c = true → (∀ d ∈ cs, isNameChar d = true) →
      (∀ d ∈ rest.head?, isNameChar d = false) →
      Complete (.identifier (String.ofList (c :: cs))) (c :: cs) rest
  | symbol {s rest} : (∀ d ∈ rest.head?, s.goesOn d = false) →
      Complete (.symbol s) s.text.toList rest

/-- What is no token at the front of a text, and what is said about it. -/
inductive Stuck : List Char → List Char → String → Prop where
  | stray {c rest} : IsStray c → isGap c = false → Stuck [c] rest ("character " ++ quotedChar c)
  | numeral {run x rest} : StartsNumeral run → (∀ c ∈ run, isDigit c = true ∨ c = '.') →
      NumeralEnds x rest → ¬ Mantissa run → Stuck (run ++ x) rest (String.ofList (run ++ x))

theorem isGap_eq_false {c : Char}
    (h : isDigit c = true ∨ isLetter c = true ∨ c ∈ "+-*/%().,".toList) : isGap c = false := by
  rw [Bool.eq_false_iff]
  intro hgap
  simp only [isGap, Bool.or_eq_true, beq_iff_eq] at hgap
  obtain ((rfl | rfl) | rfl) | rfl := hgap <;> revert h <;> decide

theorem StartsNumeral.exists_cons {run : List Char} (h : StartsNumeral run) :
    ∃ c cs, run = c :: cs ∧ isGap c = false := by
  obtain ⟨c, cs, rfl, hc | ⟨rfl, -⟩⟩ := h
  · exact ⟨c, cs, rfl, isGap_eq_false (.inl hc)⟩
  · exact ⟨_, cs, rfl, rfl⟩

/-- The scanner cuts a complete lexeme and makes its token. -/
theorem Complete.exists_munch {kind : TokenKind} {lexeme rest : List Char}
    (h : Complete kind lexeme rest) : ∃ c cs form, lexeme ++ rest = c :: cs ∧ isGap c = false ∧
      munch c cs = (form, rest) ∧ form.chars = lexeme ∧ ∀ start, ofForm start form =
        .ok ⟨kind, String.ofList lexeme, ⟨start, start + byteLength lexeme⟩⟩ := by
  cases h with
  | @number m x v _ hm hx hv =>
    obtain ⟨c, cs, hcons, hgap⟩ := hm.startsNumeral.exists_cons
    refine ⟨c, cs ++ x ++ rest, .numeral m x, by simp [hcons], hgap, ?_, rfl, fun start => ?_⟩
    · exact munch_eq_iff.mpr ⟨by simp [Form.chars, hcons],
        hm.startsNumeral, hm.isMantissaChar, hx⟩
    · rw [hm.signed?_eq, Option.map_eq_some_iff] at hv
      obtain ⟨n, hn, rfl⟩ := hv
      simp [ofForm, Form.chars, hn, isMantissa_iff.mpr hm]
  | @identifier c cs _ hc hcs hrest =>
    exact ⟨c, cs ++ rest, .name (c :: cs), rfl, isGap_eq_false (.inr (.inl hc)),
      munch_name hc hcs hrest, rfl, fun start => rfl⟩
  | @symbol s _ hs =>
    obtain ⟨c, cs, hcons, hgap⟩ : ∃ c cs, s.text.toList = c :: cs ∧ isGap c = false := by
      cases s <;> exact ⟨_, _, rfl, rfl⟩
    exact ⟨c, cs ++ rest, .symbol s, by simp [hcons], hgap,
      munch_symbol hs (by simp [hcons]), rfl, fun start => rfl⟩

/-- The scanner cuts what is no token, and fails. -/
theorem Stuck.exists_munch {piece rest : List Char} {detail : String}
    (h : Stuck piece rest detail) : ∃ c cs form, piece ++ rest = c :: cs ∧ isGap c = false ∧
      munch c cs = (form, rest) ∧ ∀ start, ofForm start form =
        .error ⟨.malformed (some detail), ⟨start, start + byteLength piece⟩⟩ := by
  cases h with
  | @stray c _ hc hgap =>
    exact ⟨c, rest, .stray c, rfl, hgap, munch_stray hc rest, fun start => rfl⟩
  | @numeral run x _ hstart hrun hx hm =>
    obtain ⟨c, cs, hcons, hgap⟩ := hstart.exists_cons
    refine ⟨c, cs ++ x ++ rest, .numeral run x, by simp [hcons], hgap, ?_, fun start => ?_⟩
    · exact munch_eq_iff.mpr ⟨by simp [Form.chars, hcons],
        hstart, fun c hc => by simpa [isMantissaChar] using hrun c hc, hx⟩
    · have hmantissa : isMantissa run = false := by
        rw [← Bool.not_eq_true, isMantissa_iff]
        exact hm
      unfold ofForm
      cases hn : Numeral.ofChars? (run ++ x) <;> simp [Form.chars, hn, hmantissa]

/-- Behind a gap there is a token or a place where the scan gets stuck. -/
theorem complete_or_stuck {c : Char} (hc : isGap c = false) (cs : List Char) :
    ∃ piece rest, piece ++ rest = c :: cs ∧ rest.length ≤ cs.length ∧
      ((∃ kind, Complete kind piece rest) ∨ ∃ detail, Stuck piece rest detail) := by
  refine ⟨(munch c cs).1.chars, (munch c cs).2, munch_append c cs, length_munch c cs, ?_⟩
  have hends := ends_munch c cs
  have happend := munch_append c cs
  generalize (munch c cs).1 = form, (munch c cs).2 = rest at *
  cases form with
  | numeral run x =>
    obtain ⟨hstart, hrun, hx⟩ := hends
    by_cases hm : Mantissa run
    · obtain ⟨v, hv⟩ := hm.exists_signed? hx.exponent
      exact .inl ⟨_, .number hm hx hv⟩
    · exact .inr ⟨_, .numeral hstart (fun c hc => by simpa [isMantissaChar] using hrun c hc) hx hm⟩
  | name cs' =>
    obtain ⟨⟨d, ds, rfl, hd, hds⟩, hrest⟩ := hends
    exact .inl ⟨_, .identifier hd hds hrest⟩
  | symbol s => exact .inl ⟨_, .symbol hends⟩
  | stray d =>
    obtain ⟨rfl, rfl⟩ := List.cons.inj happend
    exact .inr ⟨_, .stray hends hc⟩

end Lexeme

section
open Lexeme

theorem tokenizeFrom_gap {gap : List Char} (hgap : ∀ c ∈ gap, isGap c = true) (offset : Nat) :
    tokenizeFrom offset gap = .ok [] := by
  rw [tokenizeFrom]
  split
  · rfl
  · next h =>
    rw [← List.append_nil gap, dropWhile_of_stop hgap (by simp)] at h
    cases h

theorem tokenizeFrom_cons {gap cs : List Char} {c : Char} (hgap : ∀ c ∈ gap, isGap c = true)
    (hc : isGap c = false) (offset : Nat) : tokenizeFrom offset (gap ++ c :: cs) =
      ofForm (offset + byteLength gap) (munch c cs).1 >>= fun t =>
        (tokenizeFrom (offset + byteLength gap + byteLength (munch c cs).1.chars)
          (munch c cs).2).map (t :: ·) := by
  have hstop : ∀ d ∈ (c :: cs).head?, isGap d = false := by
    rintro _ ⟨⟩
    exact hc
  rw [tokenizeFrom]
  split
  · next h =>
    rw [dropWhile_of_stop hgap hstop] at h
    cases h
  · next h =>
    rw [dropWhile_of_stop hgap hstop] at h
    cases h
    rw [takeWhile_of_stop hgap hstop]
    dsimp only
    cases ofForm (offset + byteLength gap) (munch c cs).1 <;> rfl

theorem tokenizeFrom_complete {gap lexeme rest : List Char} {kind : TokenKind}
    (hgap : ∀ c ∈ gap, isGap c = true) (h : Complete kind lexeme rest) (offset : Nat) :
    tokenizeFrom offset (gap ++ (lexeme ++ rest)) =
      (tokenizeFrom (offset + byteLength gap + byteLength lexeme) rest).map
        (⟨kind, String.ofList lexeme,
          ⟨offset + byteLength gap, offset + byteLength gap + byteLength lexeme⟩⟩ :: ·) := by
  obtain ⟨c, cs, form, hcons, hc, hmunch, rfl, hform⟩ := h.exists_munch
  rw [hcons, tokenizeFrom_cons hgap hc, hmunch, hform]
  rfl

theorem tokenizeFrom_stuck {gap piece rest : List Char} {detail : String}
    (hgap : ∀ c ∈ gap, isGap c = true) (h : Stuck piece rest detail) (offset : Nat) :
    tokenizeFrom offset (gap ++ (piece ++ rest)) =
      .error ⟨.malformed (some detail),
        ⟨offset + byteLength gap, offset + byteLength gap + byteLength piece⟩⟩ := by
  obtain ⟨c, cs, form, hcons, hc, hmunch, hform⟩ := h.exists_munch
  rw [hcons, tokenizeFrom_cons hgap hc, hmunch, hform]
  rfl

end

/-- A text that starts at an offset and stands before others, cut from the left into gaps and
complete lexemes. -/
inductive Cut (after : List Char) : Nat → List Char → List Token → Prop where
  | gap {offset gap} : (∀ c ∈ gap, isGap c = true) → Cut after offset gap []
  | token {offset gap kind lexeme text ts} : (∀ c ∈ gap, isGap c = true) →
      Lexeme.Complete kind lexeme (text ++ after) →
      Cut after (offset + byteLength gap + byteLength lexeme) text ts →
      Cut after offset (gap ++ (lexeme ++ text)) (⟨kind, String.ofList lexeme,
        ⟨offset + byteLength gap, offset + byteLength gap + byteLength lexeme⟩⟩ :: ts)

inductive StuckAt : Nat → List Char → Failure → Prop where
  | mk {offset before piece after detail ts} : Cut (piece ++ after) offset before ts →
      Lexeme.Stuck piece after detail →
      StuckAt offset (before ++ (piece ++ after)) ⟨.malformed (some detail),
        ⟨offset + byteLength before, offset + byteLength before + byteLength piece⟩⟩

theorem tokenizeFrom_of_cut {after text : List Char} {offset : Nat} {ts : List Token}
    (h : Cut after offset text ts) (hafter : after = []) : tokenizeFrom offset text = .ok ts := by
  subst hafter
  induction h with
  | gap hgap => exact tokenizeFrom_gap hgap _
  | token hgap hlexeme _ ih =>
    rw [List.append_nil] at hlexeme
    rw [tokenizeFrom_complete hgap hlexeme, ih]
    rfl

theorem tokenizeFrom_of_stuck {before piece after : List Char} {offset : Nat} {ts : List Token}
    {detail : String} (h : Cut (piece ++ after) offset before ts)
    (hpiece : Lexeme.Stuck piece after detail) :
    tokenizeFrom offset (before ++ (piece ++ after)) = .error ⟨.malformed (some detail),
      ⟨offset + byteLength before, offset + byteLength before + byteLength piece⟩⟩ := by
  induction h with
  | gap hgap => exact tokenizeFrom_stuck hgap hpiece _
  | token hgap hlexeme _ ih =>
    rw [List.append_assoc, List.append_assoc, tokenizeFrom_complete hgap hlexeme, ih]
    simp only [Except.map, byteLength_append, Nat.add_assoc]

theorem StuckAt.token {gap lexeme text : List Char} {kind : TokenKind} {offset : Nat} {f : Failure}
    (hgap : ∀ c ∈ gap, isGap c = true) (hlexeme : Lexeme.Complete kind lexeme text)
    (h : StuckAt (offset + byteLength gap + byteLength lexeme) text f) :
    StuckAt offset (gap ++ (lexeme ++ text)) f := by
  obtain ⟨hcut, hstuck⟩ := h
  have h := StuckAt.mk (.token hgap hlexeme hcut) hstuck
  simpa only [List.append_assoc, byteLength_append, Nat.add_assoc] using h

theorem exists_gap_append (text : List Char) :
    ∃ gap rest, text = gap ++ rest ∧ (∀ c ∈ gap, isGap c = true) ∧
      ∀ c ∈ rest.head?, isGap c = false :=
  ⟨text.takeWhile isGap, text.dropWhile isGap, List.takeWhile_append_dropWhile.symm,
    List.all_eq_true.mp List.all_takeWhile, head?_dropWhile_eq_false isGap text⟩

/-- Every text is cut whole or up to a place where the scan gets stuck. -/
theorem cut_or_stuck (text : List Char) (offset : Nat) :
    (∃ ts, Cut [] offset text ts) ∨ ∃ f, StuckAt offset text f := by
  induction hn : text.length using Nat.strongRecOn generalizing text offset with
  | ind n ih =>
    obtain ⟨gap, rest, rfl, hgap, hstop⟩ := exists_gap_append text
    cases rest with
    | nil =>
      rw [List.append_nil]
      exact .inl ⟨[], .gap hgap⟩
    | cons c cs =>
      obtain ⟨piece, rest, hcons, hlength, ⟨kind, hpiece⟩ | ⟨detail, hpiece⟩⟩ :=
        Lexeme.complete_or_stuck (hstop c rfl) cs
      · have hlt : rest.length < n := by
          rw [← hn, List.length_append, List.length_cons]
          omega
        rw [← hcons]
        obtain ⟨ts, hts⟩ | ⟨f, hf⟩ :=
          ih rest.length hlt rest (offset + byteLength gap + byteLength piece) rfl
        · exact .inl ⟨_, .token hgap (by rwa [List.append_nil]) hts⟩
        · exact .inr ⟨f, hf.token hgap hpiece⟩
      · rw [← hcons]
        exact .inr ⟨_, .mk (.gap hgap) hpiece⟩

theorem tokenizeFrom_eq_ok_iff {offset : Nat} {text : List Char} {ts : List Token} :
    tokenizeFrom offset text = .ok ts ↔ Cut [] offset text ts := by
  constructor
  · intro h
    obtain ⟨ts', hts⟩ | ⟨f, hf⟩ := cut_or_stuck text offset
    · rw [tokenizeFrom_of_cut hts rfl] at h
      cases h
      exact hts
    · obtain ⟨hcut, hstuck⟩ := hf
      rw [tokenizeFrom_of_stuck hcut hstuck] at h
      cases h
  · exact fun h => tokenizeFrom_of_cut h rfl

theorem tokenizeFrom_eq_error_iff {offset : Nat} {text : List Char} {f : Failure} :
    tokenizeFrom offset text = .error f ↔ StuckAt offset text f := by
  constructor
  · intro h
    obtain ⟨ts, hts⟩ | ⟨f', hf⟩ := cut_or_stuck text offset
    · rw [tokenizeFrom_of_cut hts rfl] at h
      cases h
    · obtain ⟨hcut, hstuck⟩ := hf
      rw [tokenizeFrom_of_stuck hcut hstuck] at h
      cases h
      exact .mk hcut hstuck
  · rintro ⟨hcut, hstuck⟩
    exact tokenizeFrom_of_stuck hcut hstuck

end Reckon
