import Reckon.Proofs.Cut

/-! The maximal-munch decomposition of a text, told by its spans alone. Scanning finds it, or fails at
the first place where there is none. -/
namespace Reckon
open Text Token

/-- The tokens of a text that starts at an offset and stands before others. -/
structure MaximalMunch (after : List Char) (offset : Nat) (text : List Char) (ts : List Token) :
    Prop where
  ordered : ts.Pairwise fun t u => t.span.stop ≤ u.span.start
  nonempty : ∀ t ∈ ts, t.span.start < t.span.stop
  /-- Outside of the spans there are only gaps. -/
  covered : ∀ before c rest, text = before ++ c :: rest → isGap c = true ∨
    ∃ t ∈ ts, t.span.start ≤ offset + byteLength before ∧
      offset + byteLength before + c.utf8Size ≤ t.span.stop
  /-- A lexeme is the text of its span and complete at its place. -/
  complete : ∀ t ∈ ts, ∃ before rest, text = before ++ (t.lexeme.toList ++ rest) ∧
    t.span = ⟨offset + byteLength before,
      offset + byteLength before + byteLength t.lexeme.toList⟩ ∧
    Lexeme.Complete t.kind t.lexeme.toList (rest ++ after)

theorem Lexeme.Complete.ne_nil {kind : TokenKind} {lexeme rest : List Char}
    (h : Lexeme.Complete kind lexeme rest) : lexeme ≠ [] := by
  cases h with
  | number hm =>
    obtain ⟨c, cs, rfl, -⟩ := hm.startsNumeral
    nofun
  | identifier => nofun
  | @symbol s => cases s <;> nofun

theorem byteLength_pos {cs : List Char} (h : cs ≠ []) : 0 < byteLength cs :=
  Nat.lt_of_lt_of_le (List.length_pos_iff.mpr h) (length_le_byteLength cs)

/-- A character of a text in two parts is in one of them. -/
theorem append_eq_append_cons {a b before rest : List Char} {c : Char}
    (h : a ++ b = before ++ c :: rest) :
    (∃ r, a = before ++ c :: r) ∨ ∃ m, before = a ++ m ∧ b = m ++ c :: rest := by
  obtain ⟨m, rfl, rfl⟩ | ⟨m, rfl, hb⟩ := List.append_eq_append_iff.mp h
  · exact .inr ⟨m, rfl, rfl⟩
  · cases m with
    | nil => exact .inr ⟨[], by simp, hb.symm⟩
    | cons d m =>
      obtain ⟨rfl, -⟩ := List.cons.inj hb
      exact .inl ⟨m, rfl⟩

/-- Of two fronts of a text, the one with fewer bytes is a front of the other. -/
theorem exists_append_of_byteLength_le {a b x y : List Char} (h : a ++ x = b ++ y)
    (hle : byteLength a ≤ byteLength b) : ∃ m, b = a ++ m ∧ x = m ++ y := by
  obtain ⟨m, rfl, rfl⟩ | ⟨m, rfl, rfl⟩ := List.append_eq_append_iff.mp h
  · exact ⟨m, rfl, rfl⟩
  · cases m with
    | nil => exact ⟨[], by simp, rfl⟩
    | cons c m =>
      have := c.utf8Size_pos
      simp only [byteLength_append, byteLength_cons] at hle
      omega

namespace Cut
variable {after : List Char} {offset : Nat} {text : List Char} {ts : List Token}

/-- The decomposition with one token more in front. -/
theorem maximalMunch_token {gap lexeme : List Char} {kind : TokenKind}
    (hgap : ∀ c ∈ gap, isGap c = true) (hlexeme : Lexeme.Complete kind lexeme (text ++ after))
    (h : MaximalMunch after (offset + byteLength gap + byteLength lexeme) text ts) :
    MaximalMunch after offset (gap ++ (lexeme ++ text)) (⟨kind, String.ofList lexeme,
      ⟨offset + byteLength gap, offset + byteLength gap + byteLength lexeme⟩⟩ :: ts) := by
  have hpos := byteLength_pos hlexeme.ne_nil
  refine ⟨List.pairwise_cons.mpr ⟨fun u hu => ?_, h.ordered⟩, ?_, ?_, ?_⟩
  · obtain ⟨before, _, _, hspan, _⟩ := h.complete u hu
    rw [hspan]
    exact Nat.le_add_right ..
  · intro t ht
    obtain rfl | ht := List.mem_cons.mp ht
    · exact Nat.lt_add_of_pos_right hpos
    · exact h.nonempty t ht
  · intro before c rest heq
    obtain ⟨r, rfl⟩ | ⟨m, rfl, hbehind⟩ := append_eq_append_cons heq
    · exact .inl (hgap c (by simp))
    clear heq
    obtain ⟨r, rfl⟩ | ⟨m, rfl, rfl⟩ := append_eq_append_cons hbehind
    · refine .inr ⟨_, List.mem_cons_self .., ?_, ?_⟩
      all_goals
        simp only [byteLength_append, byteLength_cons]
        omega
    · refine (h.covered m c rest rfl).imp_right fun ⟨t, ht, hstart, hstop⟩ => ?_
      refine ⟨t, List.mem_cons_of_mem _ ht, ?_, ?_⟩
      all_goals
        simp only [byteLength_append]
        omega
  · intro t ht
    obtain rfl | ht := List.mem_cons.mp ht
    · exact ⟨gap, text, by simp, by simp, by simpa using hlexeme⟩
    · obtain ⟨before, rest, rfl, hspan, hcomplete⟩ := h.complete t ht
      refine ⟨gap ++ (lexeme ++ before), rest, by simp, ?_, hcomplete⟩
      rw [hspan]
      simp only [byteLength_append, Nat.add_assoc]

theorem maximalMunch (h : Cut after offset text ts) : MaximalMunch after offset text ts := by
  induction h with
  | gap hgap =>
    refine ⟨.nil, nofun, ?_, nofun⟩
    rintro before c rest rfl
    exact .inl (hgap c (by simp))
  | token hgap hlexeme _ ih => exact maximalMunch_token hgap hlexeme ih

end Cut

namespace MaximalMunch
variable {after : List Char} {offset : Nat}

/-- No span comes before the first one, so that there are only gaps. -/
theorem gap_of_cons {before rest : List Char} {t : Token} {ts : List Token}
    (h : MaximalMunch after offset (before ++ rest) (t :: ts))
    (hstart : offset + byteLength before ≤ t.span.start) : ∀ c ∈ before, isGap c = true := by
  intro c hc
  obtain ⟨b, r, rfl⟩ := List.append_of_mem hc
  obtain hgap | ⟨u, hu, hle, -⟩ := h.covered b c (r ++ rest) (by simp)
  · exact hgap
  · have hfirst : t.span.start ≤ u.span.start := by
      obtain rfl | hu := List.mem_cons.mp hu
      · exact Nat.le_refl _
      · have hlt := h.nonempty t (List.mem_cons_self ..)
        have hbehind := (List.pairwise_cons.mp h.ordered).1 u hu
        omega
    have := c.utf8Size_pos
    simp only [byteLength_append, byteLength_cons] at hstart
    omega

/-- The decomposition of what follows the first token. -/
theorem tail {before lexeme rest : List Char} {t : Token} {ts : List Token}
    (h : MaximalMunch after offset (before ++ (lexeme ++ rest)) (t :: ts))
    (hstop : t.span.stop = offset + byteLength before + byteLength lexeme) :
    MaximalMunch after (offset + byteLength before + byteLength lexeme) rest ts := by
  obtain ⟨hbehind, hordered⟩ := List.pairwise_cons.mp h.ordered
  refine ⟨hordered, fun u hu => h.nonempty u (List.mem_cons_of_mem _ hu), ?_, ?_⟩
  · rintro b c r rfl
    have hcovered := h.covered (before ++ (lexeme ++ b)) c r (by simp)
    refine hcovered.imp_right fun ⟨u, hu, hstart, hend⟩ => ?_
    simp only [byteLength_append] at hstart hend
    obtain rfl | hu := List.mem_cons.mp hu
    · have := c.utf8Size_pos
      omega
    · exact ⟨u, hu, by omega, by omega⟩
  · intro u hu
    obtain ⟨b, r, htext, hspan, hcomplete⟩ := h.complete u (List.mem_cons_of_mem _ hu)
    have hle : byteLength (before ++ lexeme) ≤ byteLength b := by
      have hu := hbehind u hu
      rw [hstop, hspan] at hu
      simp only [byteLength_append] at hu ⊢
      omega
    rw [← List.append_assoc] at htext
    obtain ⟨m, rfl, rfl⟩ := exists_append_of_byteLength_le htext hle
    refine ⟨m, r, rfl, ?_, hcomplete⟩
    rw [hspan]
    simp only [byteLength_append, Nat.add_assoc]

theorem cut {text : List Char} {ts : List Token} (h : MaximalMunch after offset text ts) :
    Cut after offset text ts := by
  induction ts generalizing offset text with
  | nil =>
    refine .gap fun c hc => ?_
    obtain ⟨before, rest, rfl⟩ := List.append_of_mem hc
    obtain hgap | ⟨t, ht, -⟩ := h.covered before c rest rfl
    · exact hgap
    · cases ht
  | cons t ts ih =>
    obtain ⟨before, rest, rfl, hspan, hcomplete⟩ := h.complete t (List.mem_cons_self ..)
    have hgap := h.gap_of_cons (hspan ▸ Nat.le_refl _)
    have hcut := Cut.token hgap hcomplete (ih (h.tail (hspan ▸ rfl)))
    rw [String.ofList_toList, ← hspan] at hcut
    exact hcut

end MaximalMunch

theorem cut_iff_maximalMunch {after : List Char} {offset : Nat} {text : List Char}
    {ts : List Token} : Cut after offset text ts ↔ MaximalMunch after offset text ts :=
  ⟨Cut.maximalMunch, MaximalMunch.cut⟩

/-- A source is scanned into the tokens of its maximal-munch decomposition. Where there is none, the
scan fails at what no token starts with behind the tokens before. A numeral always has a value. -/
theorem tokenize_eq_iff (source : List Char) :
    (∀ ts, tokenize source = .ok ts ↔ MaximalMunch [] 0 source ts) ∧
      (∀ f, tokenize source = .error f ↔ ∃ before piece after ts detail,
        source = before ++ (piece ++ after) ∧ MaximalMunch (piece ++ after) 0 before ts ∧
          Lexeme.Stuck piece after detail ∧ f = ⟨.malformed (some detail),
            ⟨byteLength before, byteLength before + byteLength piece⟩⟩) ∧
      ∀ m x rest, Lexeme.Mantissa m → Lexeme.NumeralEnds x rest →
        ∃ v, Decimal.signed? (m ++ x) = some v := by
  refine ⟨fun ts => ?_, fun f => ?_, fun m x rest hm hx => hm.exists_signed? hx.exponent⟩
  · rw [← cut_iff_maximalMunch]
    exact tokenizeFrom_eq_ok_iff
  · refine tokenizeFrom_eq_error_iff.trans ⟨?_, ?_⟩
    · rintro ⟨hcut, hstuck⟩
      refine ⟨_, _, _, _, _, rfl, hcut.maximalMunch, hstuck, ?_⟩
      simp only [Nat.zero_add]
    · rintro ⟨before, piece, after, ts, detail, rfl, hts, hstuck, rfl⟩
      have h := StuckAt.mk hts.cut hstuck
      simpa only [Nat.zero_add] using h

/-- The numeral `1.5e3` has a value. -/
theorem tokenize_eq_iff_scientific :
    ∃ v, Decimal.signed? (['1', '.', '5'] ++ ['e', '3']) = some v := by
  have hdigits (c : Char) (hc : Decimal.isDigit c = true) : Lexeme.Digits [c] := by
    simpa [Lexeme.Digits] using hc
  have hwhole : Lexeme.Whole ['1'] := .nonzero rfl (by decide) (List.forall_mem_nil _)
  have hmantissa : Lexeme.Mantissa ['1', '.', '5'] := .pointed hwhole (hdigits '5' rfl)
  have hexponent : Lexeme.Exponent ['e', '3'] :=
    @Lexeme.Exponent.mk 'e' [] ['3'] (by simp) (by simp) (List.cons_ne_nil _ _) (hdigits '3' rfl)
  exact (tokenize_eq_iff []).2.2 _ _ [] hmantissa (.scientific hexponent (by simp))

end Reckon
