import Reckon.Proofs.Place

/-! Sequences that break off before they are a sentence. Such a sequence is refused for its last
token, or for the innermost parenthesis that is still open. -/
namespace Reckon
open Grammar Token

/-- A sequence cut at the parentheses that it leaves open, of which the spans are given, innermost
first. Before, between and behind them every parenthesis is closed. -/
inductive Layered : List Token → List Span → Prop where
  | outside {ts} : Balanced (ts.map (·.kind)) → Layered ts []
  | inside {before opening behind outer} : Layered before outer →
      opening.kind = .symbol .openParen → Balanced (behind.map (·.kind)) →
      Layered (before ++ opening :: behind) (opening.span :: outer)

namespace Layered
variable {ts us : List Token} {opened outer : List Span} {opening : Span} {t : Token}

theorem append (h : Layered ts opened) (hus : Balanced (us.map (·.kind))) :
    Layered (ts ++ us) opened := by
  cases h with
  | outside hts =>
    have hall := hts.append hus
    rw [← List.map_append] at hall
    exact .outside hall
  | inside hbefore hk hbehind =>
    have hall := hbehind.append hus
    rw [← List.map_append] at hall
    rw [List.append_assoc, List.cons_append]
    exact .inside hbefore hk hall

/-- The innermost open parenthesis is closed with all that is behind it. -/
theorem close (h : Layered ts (opening :: outer)) (hk : t.kind = .symbol .closeParen) :
    Layered (ts ++ [t]) outer := by
  cases h with
  | @inside before opening behind outer hbefore hopening hbehind =>
    have hgroup : Balanced ((opening :: (behind ++ [t])).map (·.kind)) := by
      simpa [hopening, hk] using hbehind.enclosed
    rw [List.append_assoc, List.cons_append]
    exact hbefore.append hgroup

theorem nesting_eq (h : Layered ts opened) : nesting (ts.map (·.kind)) = opened.length := by
  induction h with
  | outside hts => exact hts.total
  | inside _ hk hbehind ih =>
    have hone : nesting [.symbol .openParen] = 1 := rfl
    rw [List.map_append, List.map_cons, nesting_append, ih, nesting_cons, hk, hone, hbehind.total,
      List.length_cons]
    omega

/-- One more token, which closes no parenthesis that is not open. -/
theorem step (h : Layered ts opened) (hnonneg : 0 ≤ nesting ((ts ++ [t]).map (·.kind))) :
    Layered (ts ++ [t]) (openStep opened t) := by
  by_cases hopen : t.kind = .symbol .openParen
  · rw [openStep_open opened hopen]
    exact .inside h hopen .nil
  by_cases hclose : t.kind = .symbol .closeParen
  · rw [openStep_close opened hclose]
    cases opened with
    | nil =>
      have hone : nesting [.symbol .closeParen] = -1 := rfl
      have htotal := h.nesting_eq
      rw [List.map_append, List.map_singleton, nesting_append, htotal, hclose, hone] at hnonneg
      simp at hnonneg
    | cons opening outer => exact h.close hclose
  · have hsame : openStep opened t = opened := by
      unfold openStep
      split
      · contradiction
      · contradiction
      · rfl
    have hflat : Balanced ([t].map (·.kind)) := Balanced.nil.cons (nesting_singleton hopen hclose)
    rw [hsame]
    exact h.append hflat

/-- More tokens, none of which closes a parenthesis that is not open. -/
theorem run (h : Layered ts opened)
    (hnonneg : ∀ ws, ws <+: us → 0 ≤ nesting ((ts ++ ws).map (·.kind))) :
    Layered (ts ++ us) (openAfter opened us) := by
  induction us generalizing ts opened with
  | nil =>
    rw [List.append_nil]
    exact h
  | cons u us ih =>
    have hfirst : 0 ≤ nesting ((ts ++ [u]).map (·.kind)) := hnonneg [u] (by simp)
    have hlater : ∀ ws, ws <+: us → 0 ≤ nesting (((ts ++ [u]) ++ ws).map (·.kind)) := by
      intro ws hws
      rw [List.append_assoc]
      exact hnonneg (u :: ws) ((List.prefix_cons_inj u).mpr hws)
    have hall := ih (h.step hfirst) hlater
    rw [List.append_assoc] at hall
    exact hall

end Layered

/-- The innermost parenthesis that a sequence leaves open: every other one behind it is closed. -/
def LeavesOpen (ts : List Token) (opening : Token) : Prop :=
  ∃ before behind, ts = before ++ opening :: behind ∧ opening.kind = .symbol .openParen ∧
    Balanced (behind.map (·.kind))

/-- What stands in front of an open parenthesis among balanced tokens is not balanced. -/
theorem LeavesOpen.not_balanced {ts : List Token} {opening : Token} (h : LeavesOpen ts opening) :
    ¬ Balanced (ts.map (·.kind)) := by
  obtain ⟨before, behind, rfl, hk, hbehind⟩ := h
  intro hts
  have hone : nesting [.symbol .openParen] = 1 := rfl
  have htotal := hts.total
  have hbefore := hts.nonneg (before.map (·.kind)) (by simp)
  rw [List.map_append, List.map_cons, nesting_append, nesting_cons, hk, hone, hbehind.total]
    at htotal
  omega

/-- There is one innermost parenthesis at most. -/
theorem LeavesOpen.unique {ts : List Token} {opening opening' : Token} (h : LeavesOpen ts opening)
    (h' : LeavesOpen ts opening') : opening = opening' := by
  obtain ⟨before, behind, rfl, hk, hbehind⟩ := h
  obtain ⟨before', behind', heq, hk', hbehind'⟩ := h'
  -- of two, the one in front would leave the other one open behind it
  rcases List.append_eq_append_iff.mp heq with ⟨mid, rfl, hmid⟩ | ⟨mid, rfl, hmid⟩
  · cases mid with
    | nil => exact (List.cons.inj hmid).1
    | cons t mid =>
      obtain ⟨rfl, rfl⟩ := List.cons.inj hmid
      exact absurd hbehind (LeavesOpen.not_balanced ⟨mid, behind', rfl, hk', hbehind'⟩)
  · cases mid with
    | nil => exact (List.cons.inj hmid).1.symm
    | cons t mid =>
      obtain ⟨rfl, rfl⟩ := List.cons.inj hmid
      exact absurd hbehind' (LeavesOpen.not_balanced ⟨mid, behind, rfl, hk, hbehind⟩)

theorem exists_leavesOpen {ts : List Token} {s : Span} {outer : List Span}
    (h : Layered ts (s :: outer)) : ∃ opening, LeavesOpen ts opening ∧ opening.span = s := by
  cases h with
  | @inside before opening behind _ _ hk hbehind =>
    exact ⟨opening, ⟨before, behind, rfl, hk, hbehind⟩, rfl⟩

namespace Recognizer
variable {ts : List Token}

/-- The parentheses that are found open are those that nothing closes. -/
theorem layered_of_viable (h : Viable (ts.map (·.kind))) : Layered ts (unclosed ts) := by
  obtain ⟨ls, hd⟩ := h
  have hstart : Layered [] [] := .outside .nil
  refine hstart.run fun us hus => hd.balanced.nonneg _ ?_
  exact (hus.map _).trans (List.prefix_append ..)

/-- Where neither an operator nor a dot is last, the fault is that of the innermost open
parenthesis. -/
theorem exists_leavesOpen_of_viable (hne : ts ≠ []) (hviable : Viable (ts.map (·.kind)))
    (hnot : ¬ Derives .expr (ts.map (·.kind))) (hop : ∀ p ∈ ts.getLast?, p.isOperator = false)
    (hdot : ∀ p ∈ ts.getLast?, p.is .dot = false) :
    ∃ opening, LeavesOpen ts opening ∧ sentence ts = .error (unbalanced opening.span) := by
  obtain ⟨hfails, hwaits⟩ := sentence_eq_faultAtEnd hviable hnot
  obtain ⟨p, hp⟩ : ∃ p, ts.getLast? = some p := ⟨_, List.getLast?_eq_some_getLast hne⟩
  have hop := hop p hp
  have hdot := hdot p hp
  have hopened : unclosed ts ≠ [] := by
    have h := hwaits p hp
    simpa [hop, hdot] using h
  have hlayered := layered_of_viable hviable
  obtain ⟨s, outer, hs⟩ := List.exists_cons_of_ne_nil hopened
  rw [hs] at hlayered
  obtain ⟨opening, hopening, rfl⟩ := exists_leavesOpen hlayered
  refine ⟨opening, hopening, ?_⟩
  rw [hfails, hp, hs]
  simp [faultAtEnd, hop, hdot]

end Recognizer

namespace Expression
open Recognizer

/-- A sequence with which a sentence starts, but which is none itself, is refused: for the operator
at its end, for the name that is missing behind `Math` and a dot at its end, and in every other
case for the innermost parenthesis that is still open. -/
theorem ofTokens?_eq_error_of_viable (limits : Limits) {ts : List Token} (hne : ts ≠ [])
    (hbalance : balance limits.effectiveDepth 0 ts = .ok ()) (hviable : Viable (ts.map (·.kind)))
    (hnot : ¬ Derives .expr (ts.map (·.kind))) :
    (∀ init p, ts = init ++ [p] → p.isOperator = true →
      ofTokens? limits ts = .error ⟨.missingOperand p.lexeme, p.span⟩) ∧
    (∀ init math dot, ts = init ++ [math, dot] → math.kind = .identifier "Math" →
      dot.kind = .symbol .dot →
      ofTokens? limits ts = .error ⟨.malformed none, Span.point dot.span.stop⟩) ∧
    ((∀ p ∈ ts.getLast?, p.isOperator = false) → ¬ EndInDot ts →
      ∃ opening, LeavesOpen ts opening ∧
        ofTokens? limits ts = .error ⟨.unbalanced, opening.span⟩) := by
  have hfails := (sentence_eq_faultAtEnd hviable hnot).1
  refine ⟨?_, ?_, ?_⟩
  · intro init p hts hop
    rw [hts, List.getLast?_concat, ← hts] at hfails
    refine ofTokens?_eq_error hbalance (hfails.trans ?_)
    simp [faultAtEnd, hop]
  · intro init math dot hts _ hdot
    have hlast : ts.getLast? = some dot := by simp [hts]
    have hfinish : finish ts = dot.span.stop := by simp [finish, hlast]
    rw [hlast, faultAtEnd_of_dot hdot, hfinish] at hfails
    exact ofTokens?_eq_error hbalance hfails
  · intro hop hdot
    have hnodot : ∀ p ∈ ts.getLast?, p.is .dot = false := by
      intro p hp
      rw [Bool.eq_false_iff]
      intro h
      obtain ⟨init, rfl⟩ := List.getLast?_eq_some_iff.mp hp
      exact hdot (Points.endInDot_of_viable hviable (is_iff.mp h))
    obtain ⟨opening, hopening, hs⟩ := exists_leavesOpen_of_viable hne hviable hnot hop hnodot
    exact ⟨opening, hopening, ofTokens?_eq_error hbalance hs⟩

/-- In `Math.max((1),` the group is closed, and the argument list is not. -/
theorem ofTokens?_unclosed_arguments :
    let math : Token := ⟨.identifier "Math", "Math", ⟨0, 4⟩⟩
    let dot : Token := ⟨.symbol .dot, ".", ⟨4, 5⟩⟩
    let name : Token := ⟨.identifier "max", "max", ⟨5, 8⟩⟩
    let opening : Token := ⟨.symbol .openParen, "(", ⟨8, 9⟩⟩
    let group : Token := ⟨.symbol .openParen, "(", ⟨9, 10⟩⟩
    let one : Token := ⟨.number 1, "1", ⟨10, 11⟩⟩
    let close : Token := ⟨.symbol .closeParen, ")", ⟨11, 12⟩⟩
    let comma : Token := ⟨.symbol .comma, ",", ⟨12, 13⟩⟩
    ofTokens? {} [math, dot, name, opening, group, one, close, comma] =
      .error ⟨.unbalanced, ⟨8, 9⟩⟩ := by
  intro math dot name opening group one close comma
  let ts := [math, dot, name, opening, group, one, close, comma]
  have hone : Derives .expr [.number 1] := .expr (.unsigned (.number 1)) .noOperand
  have hgroup : Derives .expr [.symbol .openParen, .number 1, .symbol .closeParen] :=
    .expr (.unsigned (.group hone)) .noOperand
  have hviable : Viable (ts.map (·.kind)) := by
    have hcall := Derives.called "max" (.moreArguments hgroup (.argument hone))
    have hsentence := Derives.expr (.unsigned (.call hcall)) .noOperand
    exact ⟨[.number 1, .symbol .closeParen], hsentence⟩
  have hnot : ¬ Derives .expr (ts.map (·.kind)) := by
    intro h
    have hlast : (TokenKind.symbol .comma).endsOperand = true := h.last _ rfl
    cases hlast
  have hop : ∀ p ∈ ts.getLast?, p.isOperator = false := by
    intro p hp
    cases hp
    rfl
  have hdot : ¬ EndInDot ts := by
    intro ⟨us, math', dot', hts, _, hk⟩
    have hlast := congrArg List.getLast? hts
    rw [List.getLast?_append] at hlast
    cases hlast
    cases hk
  have hopening : LeavesOpen ts opening := by
    have hbehind : Balanced [.symbol .openParen, .number 1, .symbol .closeParen, .symbol .comma] :=
      hgroup.balanced.append (Balanced.nil.cons rfl)
    exact ⟨[math, dot, name], [group, one, close, comma], rfl, rfl, hbehind⟩
  obtain ⟨opening', hopening', h⟩ :=
    (ofTokens?_eq_error_of_viable {} (List.cons_ne_nil _ _) rfl hviable hnot).2.2 hop hdot
  rw [hopening'.unique hopening] at h
  exact h

end Expression

end Reckon
