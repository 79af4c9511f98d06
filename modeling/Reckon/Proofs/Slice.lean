import Reckon.Proofs.Tokenization

/-! The pieces of a text that spans cover. A piece that starts with a token and ends with one is
scanned into the same tokens on its own. -/
namespace Reckon
open Text Token

namespace Span

/-- The span is that of a piece of the text. -/
def Covers (s : Span) (text piece : List Char) : Prop :=
  ∃ before after, text = before ++ (piece ++ after) ∧
    s = ⟨byteLength before, byteLength before + byteLength piece⟩

namespace Covers
variable {s : Span} {text piece : List Char}

theorem slice_eq (h : s.Covers text piece) : s.slice text = some piece := by
  obtain ⟨before, after, rfl, rfl⟩ := h
  exact slice_append ..

theorem bounded (h : s.Covers text piece) : s.start ≤ s.stop ∧ s.stop ≤ byteLength text := by
  obtain ⟨before, after, rfl, rfl⟩ := h
  simp only [byteLength_append]
  omega

end Covers

theorem covers_point_zero (text : List Char) : (point 0).Covers text [] := ⟨[], text, rfl, rfl⟩

end Span

/-- What is whole before a text is whole before any front of it. -/
theorem Lexeme.Complete.of_append {kind : TokenKind} {lexeme a b : List Char}
    (h : Lexeme.Complete kind lexeme (a ++ b)) : Lexeme.Complete kind lexeme a := by
  have hhead : ∀ c ∈ a.head?, c ∈ (a ++ b).head? := by
    intro c hc
    rw [List.head?_append, Option.mem_def.mp hc]
    rfl
  cases h with
  | number hm hends hv =>
    refine .number hm ?_ hv
    cases hends with
    | plain hstop hnone =>
      refine .plain (fun c hc => hstop c (hhead c hc)) fun x hx hfront => ?_
      exact hnone x hx (hfront.trans (List.prefix_append ..))
    | scientific hx hstop => exact .scientific hx fun c hc => hstop c (hhead c hc)
  | identifier hc hcs hstop => exact .identifier hc hcs fun c hc => hstop c (hhead c hc)
  | symbol hstop => exact .symbol fun c hc => hstop c (hhead c hc)

def Token.shift (n : Nat) (t : Token) : Token :=
  { t with span := ⟨n + t.span.start, n + t.span.stop⟩ }

theorem joinLexemes_map_shift (n : Nat) (ts : List Token) :
    joinLexemes (ts.map (shift n)) = joinLexemes ts := by
  rw [joinLexemes, List.map_map]
  rfl

namespace Cut
variable {after : List Char} {offset : Nat} {text : List Char} {ts : List Token}

theorem without_gap {lexeme : List Char} {kind : TokenKind}
    (hlexeme : Lexeme.Complete kind lexeme (text ++ after))
    (h : Cut after (offset + byteLength lexeme) text ts) :
    Cut after offset (lexeme ++ text)
      (⟨kind, String.ofList lexeme, ⟨offset, offset + byteLength lexeme⟩⟩ :: ts) :=
  @token after offset [] kind lexeme text ts nofun hlexeme h

theorem behind_gap {gap : List Char} (hgap : ∀ c ∈ gap, isGap c = true)
    (h : Cut after (offset + byteLength gap) text ts) : Cut after offset (gap ++ text) ts := by
  have hgaps {gap' : List Char} (hgap' : ∀ c ∈ gap', isGap c = true) :
      ∀ c ∈ gap ++ gap', isGap c = true := by
    intro c hc
    exact (List.mem_append.mp hc).elim (hgap c) (hgap' c)
  cases h with
  | gap hgap' => exact .gap (hgaps hgap')
  | @token _ gap' kind lexeme text ts hgap' hlexeme h =>
    have hlength : byteLength (gap ++ gap') = byteLength gap + byteLength gap' := by simp
    have hcut := @token after offset (gap ++ gap') kind lexeme text ts (hgaps hgap') hlexeme
    rw [hlength, ← Nat.add_assoc, List.append_assoc] at hcut
    exact hcut h

theorem drop {used : List Token} (h : Cut after offset text (used ++ ts)) :
    ∃ front rest, text = front ++ rest ∧ Cut after (offset + byteLength front) rest ts := by
  induction used generalizing offset text with
  | nil => exact ⟨[], text, rfl, h⟩
  | cons t used ih =>
    cases h with
    | @token _ gap kind lexeme text _ hgap hlexeme h =>
      obtain ⟨front, rest, rfl, hrest⟩ := ih h
      refine ⟨gap ++ (lexeme ++ front), rest, by simp, ?_⟩
      simpa only [byteLength_append, Nat.add_assoc] using hrest

/-- Without the gaps around the tokens. -/
theorem trim {t : Token} (h : Cut after offset text (t :: ts)) :
    ∃ gap piece rest, text = gap ++ (piece ++ rest) ∧ (∀ c ∈ gap, isGap c = true) ∧
      Cut [] (offset + byteLength gap) piece (t :: ts) ∧ t.span.start = offset + byteLength gap ∧
        ((t :: ts).getLast (List.cons_ne_nil _ _)).span.stop =
          offset + byteLength gap + byteLength piece := by
  induction ts generalizing offset text t with
  | nil =>
    cases h with
    | @token _ gap kind lexeme text _ hgap hlexeme _ =>
      have hwhole : Lexeme.Complete kind lexeme ([] ++ []) :=
        @Lexeme.Complete.of_append kind lexeme [] (text ++ after) hlexeme
      have hcut := without_gap hwhole
        (.gap nofun : Cut [] (offset + byteLength gap + byteLength lexeme) [] [])
      rw [List.append_nil] at hcut
      exact ⟨gap, lexeme, text, rfl, hgap, hcut, rfl, rfl⟩
  | cons u us ih =>
    cases h with
    | @token _ gap kind lexeme text _ hgap hlexeme h =>
      obtain ⟨gap', piece, rest, rfl, hgap', hcut, -, hstop⟩ := ih h
      rw [← List.append_assoc gap', List.append_assoc _ rest] at hlexeme
      have hwhole : Lexeme.Complete kind lexeme ((gap' ++ piece) ++ []) := by
        rw [List.append_nil]
        exact hlexeme.of_append
      refine ⟨gap, lexeme ++ (gap' ++ piece), rest, by simp, hgap,
        without_gap hwhole (hcut.behind_gap hgap'), rfl, ?_⟩
      rw [List.getLast_cons (List.cons_ne_nil _ _), hstop]
      simp only [byteLength_append, Nat.add_assoc]

/-- A cut that starts further on is that of the text on its own, with the tokens further on. -/
theorem exists_shift {n : Nat} (h : Cut after (n + offset) text ts) :
    ∃ us, ts = us.map (shift n) ∧ Cut after offset text us := by
  generalize hstart : n + offset = start at h
  induction h generalizing offset with
  | gap hgap => exact ⟨[], rfl, .gap hgap⟩
  | @token start gap kind lexeme text ts hgap hlexeme _ ih =>
    subst hstart
    obtain ⟨us, rfl, hus⟩ := @ih (offset + byteLength gap + byteLength lexeme)
      (by simp only [Nat.add_assoc])
    refine ⟨_ :: us, ?_, .token hgap hlexeme hus⟩
    simp only [List.map_cons, shift, Nat.add_assoc]

/-- The span of a token is that of its lexeme. -/
theorem covers_of_mem {t : Token} (h : Cut [] 0 text ts) (ht : t ∈ ts) :
    t.span.Covers text t.lexeme.toList ∧ t.span.start < t.span.stop := by
  have hmunch := h.maximalMunch
  obtain ⟨before, rest, htext, hspan, -⟩ := hmunch.complete t ht
  refine ⟨⟨before, rest, htext, ?_⟩, hmunch.nonempty t ht⟩
  simpa only [Nat.zero_add] using hspan

theorem merge_last {t : Token} (h : Cut after offset text (t :: ts)) :
    let last := (t :: ts).getLast (List.cons_ne_nil _ _)
    t.span.merge last.span = ⟨t.span.start, last.span.stop⟩ ∧ t.span.start < last.span.stop := by
  intro last
  have hmunch := h.maximalMunch
  have hlast : last ∈ t :: ts := List.getLast_mem _
  have hnonempty := hmunch.nonempty last hlast
  have hfirst := hmunch.nonempty t (List.mem_cons_self ..)
  have hordered : t = last ∨ t.span.stop ≤ last.span.start :=
    (List.mem_cons.mp hlast).imp Eq.symm ((List.pairwise_cons.mp hmunch.ordered).1 last)
  rw [Span.merge, Span.mk.injEq]
  obtain heq | hordered := hordered
  · rw [← heq] at hnonempty ⊢
    omega
  · omega

/-- The piece from a token to the last one is scanned into these tokens. -/
theorem exists_piece {used : List Token} {t : Token} (h : Cut [] 0 text (used ++ t :: ts)) :
    let span := t.span.merge ((t :: ts).getLast (List.cons_ne_nil _ _)).span
    span.start < span.stop ∧ ∃ piece us, span.Covers text piece ∧
      t :: ts = us.map (shift span.start) ∧ tokenize piece = .ok us := by
  intro span
  obtain ⟨front, rest, rfl, hrest⟩ := h.drop
  obtain ⟨gap, piece, behind, rfl, -, hcut, hstart, hstop⟩ := hrest.trim
  obtain ⟨hspan, hlt⟩ := hrest.merge_last
  rw [← Nat.add_zero (0 + byteLength front + byteLength gap), ← hstart] at hcut
  obtain ⟨us, hus, hpiece⟩ := hcut.exists_shift
  rw [show span = _ from hspan]
  refine ⟨hlt, piece, us, ⟨front ++ gap, behind, by simp, ?_⟩, hus, tokenizeFrom_of_cut hpiece rfl⟩
  rw [hstop, hstart]
  simp only [byteLength_append, Nat.zero_add]

/-- The end of the last token is a place of the text. -/
theorem covers_finish (h : Cut [] 0 text ts) : (Span.point (finish ts)).Covers text [] := by
  unfold finish
  split
  · next t ht =>
    obtain ⟨⟨before, rest, rfl, hspan⟩, -⟩ := h.covers_of_mem (List.mem_of_getLast? ht)
    refine ⟨before ++ t.lexeme.toList, rest, by simp, ?_⟩
    simp [Span.point, hspan]
  · exact Span.covers_point_zero text

end Cut

end Reckon
