import Reckon.Evaluation
import Reckon.Proofs.Adjacency
import Reckon.Proofs.FirstFault
import Reckon.Proofs.Normal
import Reckon.Proofs.Occurrence
import Reckon.Proofs.Slice

/-! Where failures lie. Every failure has a piece of the normalized text as its span: the lexeme
that it is about, or the tokens that are left over. Only where the text has nothing to show is it
empty. -/
namespace Reckon
open Grammar Text Token

def Cause.lexeme? : Cause → Option String
  | .missingOperand s | .undefinedVariable s | .undefinedMember s | .notCallable s
  | .notANumber s => some s
  | .malformed _ | .unbalanced | .trailing _ => none

theorem Lexeme.Stuck.ne_nil {piece rest : List Char} {detail : String}
    (h : Lexeme.Stuck piece rest detail) : piece ≠ [] := by
  cases h with
  | stray => nofun
  | numeral hstart =>
    obtain ⟨c, cs, rfl, -⟩ := hstart
    nofun

def Token.EndInDot (ts : List Token) : Prop :=
  ∃ us math dot, ts = us ++ [math, dot] ∧ math.kind = .identifier "Math" ∧
    dot.kind = .symbol .dot

/-- The places in a token sequence at which it may fail. -/
inductive Points (ts : List Token) : Failure → Prop where
  | atToken {t cause} : t ∈ ts → (∀ name, cause.lexeme? = some name → name = t.lexeme) →
      (∀ rest, cause ≠ .trailing rest) → Points ts ⟨cause, t.span⟩
  | leftOver {used t after} : ts = used ++ t :: after → Recognizer.Reads .expr ts (t :: after) →
      Points ts ⟨.trailing (joinLexemes (t :: after)),
        t.span.merge ((t :: after).getLast (List.cons_ne_nil _ _)).span⟩
  | atEnd : ts = [] ∨ EndInDot ts → Points ts ⟨.malformed none, Span.point (finish ts)⟩

namespace Points
variable {ts : List Token} {f : Failure}

theorem unexpected {t : Token} (ht : t ∈ ts) : Points ts (Recognizer.unexpected t) :=
  .atToken ht nofun nofun

theorem unbalanced {t : Token} (ht : t ∈ ts) : Points ts (Recognizer.unbalanced t.span) :=
  .atToken ht nofun nofun

theorem missingOperand {t : Token} (ht : t ∈ ts) :
    Points ts ⟨.missingOperand t.lexeme, t.span⟩ :=
  .atToken ht (fun _ h => (Option.some.inj h).symm) nofun

theorem exists_of_balance {limit depth : Nat} (h : Recognizer.balance limit depth ts = .error f) :
    ∃ t ∈ ts, f.span = t.span ∧ f.cause.lexeme? = none ∧ ∀ rest, f.cause ≠ .trailing rest := by
  induction ts generalizing depth with
  | nil => cases h
  | cons t ts ih =>
    have hlater {depth : Nat} (h : Recognizer.balance limit depth ts = .error f) :
        ∃ u ∈ t :: ts, f.span = u.span ∧ f.cause.lexeme? = none ∧
          ∀ rest, f.cause ≠ .trailing rest := by
      obtain ⟨u, hu, hf⟩ := ih h
      exact ⟨u, List.mem_cons_of_mem _ hu, hf⟩
    unfold Recognizer.balance at h
    split at h
    · split at h
      · cases h
        exact ⟨t, List.mem_cons_self .., rfl, rfl, nofun⟩
      · exact hlater h
    · cases depth with
      | zero =>
        cases h
        exact ⟨t, List.mem_cons_self .., rfl, rfl, nofun⟩
      | succ depth => exact hlater h
    · exact hlater h

private theorem of_balance {limit depth : Nat} (h : Recognizer.balance limit depth ts = .error f) :
    Points ts f := by
  obtain ⟨t, ht, hspan, hlexeme, htrailing⟩ := exists_of_balance h
  obtain ⟨cause, span⟩ := f
  subst hspan
  refine .atToken ht (fun name hname => ?_) htrailing
  rw [hlexeme] at hname
  cases hname

private theorem mem_of_mem_openStep {opened : List Span} {s : Span} {t : Token}
    (h : s ∈ openStep opened t) : s ∈ opened ∨ t.span = s := by
  unfold openStep at h
  split at h
  · exact (List.mem_cons.mp h).symm.imp_right Eq.symm
  · exact .inl (List.mem_of_mem_tail h)
  · exact .inl h

/-- An open parenthesis is one of the tokens. -/
theorem exists_mem_of_openAfter {opened : List Span} {s : Span} (h : s ∈ openAfter opened ts) :
    s ∈ opened ∨ ∃ t ∈ ts, t.span = s := by
  induction ts generalizing opened with
  | nil => exact .inl h
  | cons t ts ih =>
    rw [openAfter_cons] at h
    obtain h | ⟨u, hu, rfl⟩ := ih h
    · exact (mem_of_mem_openStep h).imp_right fun hspan => ⟨t, List.mem_cons_self .., hspan⟩
    · exact .inr ⟨u, List.mem_cons_of_mem _ hu, rfl⟩

theorem endInDot_of_viable {init : List Token} {dot : Token}
    (h : Viable ((init ++ [dot]).map (·.kind))) (hdot : dot.kind = .symbol .dot) :
    EndInDot (init ++ [dot]) := by
  obtain ⟨ls, hd⟩ := h
  have hkinds : Rule.expr.lead ++ ((init ++ [dot]).map (·.kind) ++ ls) =
      init.map (·.kind) ++ .symbol .dot :: ls := by
    simp [Rule.lead, hdot]
  rw [hkinds] at hd
  cases hlast : init.getLast? with
  | none =>
    obtain rfl := List.getLast?_eq_none_iff.mp hlast
    have hstart : (TokenKind.symbol .dot).startsOperand = true := hd.joined.head _ rfl
    exact absurd hstart (by decide)
  | some math =>
    obtain ⟨us, rfl⟩ := List.getLast?_eq_some_iff.mp hlast
    have hadjoining := hd.joined.adjoining
    rw [List.map_append, List.map_singleton, List.append_assoc, List.singleton_append]
      at hadjoining
    have hmath : math.kind.isMath = true := hadjoining.between
    exact ⟨us, math, dot, by simp, isMath_iff.mp hmath, hdot⟩

private theorem of_faultAt {used after : List Token} {t : Token}
    (h : Recognizer.Waits (unclosed used) used.getLast? ∨
      Recognizer.Reads .expr (used ++ t :: after) (t :: after)) :
    Points (used ++ t :: after)
      (Recognizer.faultAt (unclosed used) used.getLast? t after) := by
  have ht : t ∈ used ++ t :: after := by simp
  unfold Recognizer.faultAt
  split
  · exact .unexpected ht
  · next p hp =>
    have hmem : p ∈ used ++ t :: after := List.mem_append_left _ (List.mem_of_getLast? hp)
    split
    · exact .missingOperand hmem
    · split
      · next hend =>
        split
        · next hopened =>
          refine .leftOver rfl (h.resolve_left fun hwaits => ?_)
          have hnot := Recognizer.not_operator_of_endsOperand hend
          have := hwaits p hp
          simp [hnot, hopened] at this
        · exact .unbalanced ht
      · exact .unexpected ht

private theorem of_faultAtEnd (hviable : Viable (ts.map (·.kind)))
    (h : Recognizer.Waits (unclosed ts) ts.getLast?) :
    Points ts (Recognizer.faultAtEnd (finish ts) (unclosed ts) ts.getLast?) := by
  cases hlast : ts.getLast? with
  | none =>
    obtain rfl := List.getLast?_eq_none_iff.mp hlast
    exact .atEnd (.inl rfl)
  | some p =>
    have hmem : p ∈ ts := List.mem_of_getLast? hlast
    unfold Recognizer.faultAtEnd
    dsimp only
    split
    · exact .missingOperand hmem
    · next hop =>
      split
      · next hdot =>
        obtain ⟨init, rfl⟩ := List.getLast?_eq_some_iff.mp hlast
        exact .atEnd (.inr (endInDot_of_viable hviable (is_iff.mp hdot)))
      · next hdot =>
        have hopened : unclosed ts ≠ [] := ((h p hlast).resolve_left hop).resolve_left hdot
        obtain ⟨opening, outside, hopened⟩ := List.exists_cons_of_ne_nil hopened
        have hopening : opening ∈ openAfter [] ts := by
          rw [show openAfter [] ts = opening :: outside from hopened]
          exact List.mem_cons_self ..
        obtain hnil | ⟨t, ht, rfl⟩ := exists_mem_of_openAfter hopening
        · cases hnil
        · rw [hopened]
          exact .unbalanced ht

theorem of_sentence (h : Recognizer.sentence ts = .error f) : Points ts f := by
  obtain ⟨used, t, after, rfl, -, -, rfl, hwaits⟩ | ⟨hviable, rfl, hwaits⟩ :=
    Recognizer.exists_fault_of_error h
  · exact of_faultAt hwaits
  · exact of_faultAtEnd hviable hwaits

theorem of_check {limits : Limits} (h : Expression.ofTokens? limits ts = .error f) :
    Points ts f := by
  obtain hbalance | ⟨-, hsentence⟩ := Expression.ofTokens?_eq_error_iff.mp h
  · exact of_balance hbalance
  · exact of_sentence hsentence

theorem mem_of_mem_occurrences {behindDot : Bool} {o : Occurrence}
    (h : o ∈ occurrences behindDot ts) : o.name ∈ ts := by
  induction ts generalizing behindDot with
  | nil => cases h
  | cons t ts ih =>
    rw [occurrences] at h
    split at h
    · split at h
      · obtain rfl | h := List.mem_cons.mp h
        · exact List.mem_cons_self ..
        · exact List.mem_cons_of_mem _ (ih h)
      · split at h
        · exact List.mem_cons_of_mem _ (ih h)
        · obtain rfl | h := List.mem_cons.mp h
          · exact List.mem_cons_self ..
          · exact List.mem_cons_of_mem _ (ih h)
    · exact List.mem_cons_of_mem _ (ih h)

theorem lexeme?_of_cause? {b : Bindings} {o : Occurrence} {cause : Cause}
    (h : o.cause? b = some cause) : cause.lexeme? = some o.name.lexeme := by
  unfold Occurrence.cause? at h
  dsimp only at h
  split at h
  · split at h
    · cases h
      rfl
    · split at h
      · cases h
      · cases h
        rfl
  · split at h <;> cases h <;> rfl
  · split at h <;> cases h <;> rfl

/-- A name that does not resolve is a token, and the failure repeats its lexeme. -/
theorem of_value {x : Expression} {b : Bindings} (h : x.value b = .error f) :
    Points x.tokens f := by
  rw [← failureOf_eq_some_iff, Expression.failureOf_value] at h
  obtain ⟨o, ho, hfailure⟩ := List.exists_of_findSome?_eq_some h
  obtain ⟨hcause, hspan⟩ := Occurrence.failure?_eq_some_iff.mp hfailure
  obtain ⟨cause, span⟩ := f
  subst hspan
  have hlexeme := lexeme?_of_cause? hcause
  refine .atToken (mem_of_mem_occurrences ho) (fun name hname => ?_) ?_
  · exact Option.some.inj (hname.symm.trans hlexeme)
  · rintro rest rfl
    cases hlexeme

end Points

/-- The source has nothing to show, or misses the name behind its last dot. -/
inductive Unplaced (source : String) (limits : Limits) : Prop where
  | overlong : limits.maxSourceLength < byteLength source.toList → Unplaced source limits
  | blank : (∀ c ∈ source.toList, isGap c = true) → Unplaced source limits
  | endInDot {ts} : tokenize (normalize source.toList) = .ok ts → EndInDot ts →
      Unplaced source limits

/-- What the span of a failure covers in the normal form of the source. -/
structure Located (source : String) (limits : Limits) (f : Failure) (piece : List Char) : Prop where
  covers : f.span.Covers (normalize source.toList) piece
  named : ∀ name, f.cause.lexeme? = some name → piece = name.toList
  unbalanced : f.cause = .unbalanced → ∃ ts, tokenize (normalize source.toList) = .ok ts ∧
    ∃ t ∈ ts, t.span = f.span ∧ piece = t.lexeme.toList
  trailing : ∀ rest, f.cause = .trailing rest → ∃ used us,
    let left := us.map (shift f.span.start)
    tokenize (normalize source.toList) = .ok (used ++ left) ∧
      Recognizer.Reads .expr (used ++ left) left ∧ tokenize piece = .ok us ∧ rest = joinLexemes us
  empty : f.span.start = f.span.stop →
    (∃ detail, f.cause = .malformed detail) ∧ Unplaced source limits

namespace Located
variable {source : String} {limits : Limits}

/-- A malformed text is not said to have any particular lexeme at the span. -/
theorem malformed {detail : Option String} {span : Span} {piece : List Char}
    (hcovers : span.Covers (normalize source.toList) piece)
    (hempty : span.start = span.stop → Unplaced source limits) :
    Located source limits ⟨.malformed detail, span⟩ piece :=
  ⟨hcovers, nofun, nofun, nofun, fun h => ⟨⟨detail, rfl⟩, hempty h⟩⟩

theorem of_stuckAt {f : Failure} (h : StuckAt 0 (normalize source.toList) f) :
    ∃ piece, Located source limits f piece := by
  generalize htext : normalize source.toList = text at h
  cases h with
  | @mk before piece after detail ts hcut hstuck =>
    have hpos := byteLength_pos hstuck.ne_nil
    refine ⟨piece, .malformed ⟨before, after, htext, by simp only [Nat.zero_add]⟩ fun h => ?_⟩
    dsimp only at h
    omega

section
variable {ts : List Token} (hcut : Cut [] 0 (normalize source.toList) ts)
include hcut

theorem of_atToken {t : Token} {cause : Cause} (ht : t ∈ ts)
    (hnamed : ∀ name, cause.lexeme? = some name → name = t.lexeme)
    (htrailing : ∀ rest, cause ≠ .trailing rest) :
    Located source limits ⟨cause, t.span⟩ t.lexeme.toList := by
  obtain ⟨hcovers, hlt⟩ := hcut.covers_of_mem ht
  refine ⟨hcovers, fun name hname => ?_, fun _ => ?_, fun rest hrest => ?_, fun h => ?_⟩
  · rw [hnamed name hname]
  · exact ⟨ts, tokenizeFrom_of_cut hcut rfl, t, ht, rfl, rfl⟩
  · exact absurd hrest (htrailing rest)
  · exact absurd h (Nat.ne_of_lt hlt)

theorem of_leftOver {used after : List Token} {t : Token} (hts : ts = used ++ t :: after)
    (hreads : Recognizer.Reads .expr ts (t :: after)) :
    ∃ piece, Located source limits ⟨.trailing (joinLexemes (t :: after)),
        t.span.merge ((t :: after).getLast (List.cons_ne_nil _ _)).span⟩ piece := by
  subst hts
  obtain ⟨hlt, piece, us, hcovers, hus, htokens⟩ := hcut.exists_piece
  refine ⟨piece, hcovers, nofun, nofun, ?_, fun h => absurd h (Nat.ne_of_lt hlt)⟩
  rintro _ ⟨⟩
  refine ⟨used, us, ?_⟩
  rw [← hus]
  exact ⟨tokenizeFrom_of_cut hcut rfl, hreads, htokens, by rw [hus, joinLexemes_map_shift]⟩

theorem of_atEnd (h : ts = [] ∨ EndInDot ts) :
    Located source limits ⟨.malformed none, Span.point (finish ts)⟩ [] := by
  refine .malformed hcut.covers_finish fun _ => ?_
  obtain rfl | hdot := h
  · generalize htext : normalize source.toList = text at hcut
    cases hcut with
    | gap hgap =>
      rw [← htext] at hgap
      exact .blank (isGap_of_normalize hgap)
  · exact .endInDot (tokenizeFrom_of_cut hcut rfl) hdot

theorem of_points {f : Failure} (h : Points ts f) : ∃ piece, Located source limits f piece := by
  cases h with
  | atToken ht hnamed htrailing => exact ⟨_, of_atToken hcut ht hnamed htrailing⟩
  | leftOver hts hreads => exact of_leftOver hcut hts hreads
  | atEnd hend => exact ⟨[], of_atEnd hcut hend⟩

end

end Located

/-- The failure of an evaluation lies in the normal form of its source. -/
theorem evaluate_error_located (source : String) (b : Bindings) (limits : Limits) {f : Failure}
    (h : evaluate source b limits = .error f) :
    ∃ piece, f.span.slice (normalize source.toList) = some piece ∧ f.span.start ≤ f.span.stop ∧
      f.span.stop ≤ byteLength (normalize source.toList) ∧ Located source limits f piece := by
  obtain ⟨piece, hlocated⟩ : ∃ piece, Located source limits f piece := by
    rw [evaluate, validate] at h
    split at h
    · next hlong =>
      cases h
      exact ⟨[], .malformed (Span.covers_point_zero _) fun _ => .overlong hlong⟩
    · obtain h | ⟨x, hx, hvalue⟩ := bind_eq_error_iff.mp h
      · obtain hstuck | ⟨ts, hts, hcheck⟩ := bind_eq_error_iff.mp h
        · exact Located.of_stuckAt (tokenizeFrom_eq_error_iff.mp hstuck)
        · exact Located.of_points (tokenizeFrom_eq_ok_iff.mp hts) (.of_check hcheck)
      · obtain ⟨ts, hts, hcheck⟩ := exists_of_bind_eq_ok hx
        have htokens := Expression.tokens_of_ofTokens? hcheck
        exact Located.of_points (tokenizeFrom_eq_ok_iff.mp hts) (htokens ▸ .of_value hvalue)
  obtain ⟨hordered, hbounded⟩ := hlocated.covers.bounded
  exact ⟨piece, hlocated.covers.slice_eq, hordered, hbounded, hlocated⟩

/-- In `a b` the second name is left over. -/
theorem evaluate_error_located_trailing :
    evaluate "a b" Bindings.empty = .error ⟨.trailing "b", ⟨2, 3⟩⟩ ∧
      ∃ piece, Located "a b" {} ⟨.trailing "b", ⟨2, 3⟩⟩ piece := by
  let a : Token := ⟨.identifier "a", "a", ⟨0, 1⟩⟩
  let b : Token := ⟨.identifier "b", "b", ⟨2, 3⟩⟩
  have hb : Lexeme.Complete (.identifier "b") ['b'] ([] ++ []) := .identifier rfl nofun nofun
  have ha : Lexeme.Complete (.identifier "a") ['a'] ([' ', 'b'] ++ []) :=
    .identifier rfl nofun (by rintro _ ⟨⟩; rfl)
  have hgap : ∀ c ∈ [' '], isGap c = true := List.all_eq_true.mp rfl
  have hcut : Cut [] 0 ['a', ' ', 'b'] [a, b] :=
    .without_gap ha (.token hgap hb (.gap nofun))
  have hfails : evaluate "a b" Bindings.empty = .error ⟨.trailing "b", ⟨2, 3⟩⟩ := by
    have htokens : tokenize (normalize "a b".toList) = .ok [a, b] := tokenizeFrom_of_cut hcut rfl
    have hcheck : Recognizer.sentence [a, b] = .error ⟨.trailing "b", ⟨2, 3⟩⟩ := by
      rw [Recognizer.sentence_eq_leftover]
      simp [Recognizer.leftover_expr, Recognizer.leftover_term_cons, Recognizer.leftover_atom_cons,
        Recognizer.leftover_operands_cons, a, b, isSign, TokenKind.isSign, isMath,
        TokenKind.isMath, BinaryOp.ofKind?, bind, Except.bind, joinLexemes, Span.merge]
    rw [evaluate, validate, if_neg (by decide), htokens]
    have hx : Expression.ofTokens? {} [a, b] = _ := Expression.ofTokens?_eq_error rfl hcheck
    show (Expression.ofTokens? {} [a, b] >>= _) = _
    rw [hx]
    rfl
  obtain ⟨piece, -, -, -, hlocated⟩ := evaluate_error_located "a b" Bindings.empty {} hfails
  exact ⟨hfails, piece, hlocated⟩
end Reckon
