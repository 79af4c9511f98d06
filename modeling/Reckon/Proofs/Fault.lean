import Reckon.Proofs.Completion

/-! Faults of token sequences, told by the token before, the open parentheses and the token that
does not fit. A run of the recognizer breaks off with one of them where the tokens read can be
completed, but not with the next one. -/
namespace Reckon
open Grammar Token

def Token.isOperator (t : Token) : Bool := (BinaryOp.ofKind? t.kind).isSome || t.isSign

theorem Token.endsOperand_eq_false {t : Token} (h : t.isOperator = true) :
    t.kind.endsOperand = false := by
  have hsymbol : ∃ s ∈ binaryOperators ++ signs, t.kind = .symbol s := by
    rw [isOperator, Bool.or_eq_true, BinaryOp.isSome_ofKind?_iff, isSign_iff] at h
    obtain ⟨s, hs, hk⟩ | ⟨s, hs, hk⟩ := h
    · exact ⟨s, List.mem_append_left _ hs, hk⟩
    · exact ⟨s, List.mem_append_right _ hs, hk⟩
  obtain ⟨s, hs, hk⟩ := hsymbol
  rw [hk]
  revert hs
  cases s <;> decide

namespace Recognizer

/-- The failure at a token that no sentence has behind those before: without its operand an operator
is at fault; behind an operand the open parenthesis should be closed, or nothing should come. -/
def faultAt (opened : List Span) (previous : Option Token) (t : Token) (after : List Token) :
    Failure :=
  match previous with
  | none => unexpected t
  | some p =>
    if p.isOperator && (t.is .closeParen || t.is .comma) then ⟨.missingOperand p.lexeme, p.span⟩
    else if p.kind.endsOperand then
      match opened with
      | [] => ⟨.trailing (joinLexemes (t :: after)),
          t.span.merge ((t :: after).getLast (List.cons_ne_nil _ _)).span⟩
      | _ :: _ => unbalanced t.span
    else unexpected t

/-- The failure at the end of tokens that some sentence goes on with. -/
def faultAtEnd (finish : Nat) (opened : List Span) (previous : Option Token) : Failure :=
  let unfinished : Failure :=
    match opened with
    | opening :: _ => unbalanced opening
    | [] => ⟨.malformed none, Span.point finish⟩
  match previous with
  | none => unfinished
  | some p =>
    if p.isOperator then ⟨.missingOperand p.lexeme, p.span⟩
    else if p.is .dot then ⟨.malformed none, Span.point finish⟩
    else unfinished

def Passes : Rule → List Token → Prop
  | .arguments, ts =>
    ∃ (close : Token) (rest : List Token), close.kind = .symbol .closeParen ∧
      Reads .arguments ts (close :: rest)
  | rule, ts => ∃ rest, Reads rule ts rest

/-- More tokens have to come, unless there are none yet: behind an operator or a dot, or where a
parenthesis is open. -/
def Waits (opened : List Span) (previous : Option Token) : Prop :=
  ∀ p ∈ previous, p.isOperator = true ∨ p.is .dot = true ∨ opened ≠ []

/-- A failed run along a rule, with the parentheses that are open and the token before. It breaks
off where the tokens read can be completed, but not with the next one. -/
inductive Breaks (finish : Nat) (rule : Rule) (opened : List Span) (previous : Option Token) :
    List Token → Failure → Prop where
  | atToken {used t after} : Opens rule (used.map (·.kind)) →
      Waits (openAfter opened used) (last previous used) →
      (∀ after', ¬ Passes rule (used ++ t :: after')) →
      Breaks finish rule opened previous (used ++ t :: after)
        (faultAt (openAfter opened used) (last previous used) t after)
  | atEnd {ts} : Opens rule (ts.map (·.kind)) → Waits (openAfter opened ts) (last previous ts) →
      Breaks finish rule opened previous ts
        (faultAtEnd finish (openAfter opened ts) (last previous ts))

namespace Breaks
variable {finish : Nat} {rule : Rule} {opened : List Span} {previous : Option Token}

theorem first {t : Token} (after : List Token) (hwaits : Waits opened previous)
    (h : ∀ after', ¬ Passes rule (t :: after')) :
    Breaks finish rule opened previous (t :: after) (faultAt opened previous t after) :=
  @atToken finish rule opened previous [] t after (opens_nil rule) hwaits h

theorem nil (hwaits : Waits opened previous) :
    Breaks finish rule opened previous [] (faultAtEnd finish opened previous) :=
  atEnd (opens_nil rule) hwaits

/-- A run that breaks off behind tokens that the rule has taken. -/
theorem behind {outer : Rule} (us : List Token) {ts : List Token} {opened' : List Span}
    {previous' : Option Token} {f : Failure} (h : Breaks finish rule opened' previous' ts f)
    (hopened : openAfter opened us = opened') (hprevious : last previous us = previous')
    (hopens : ∀ ks, Opens rule ks → Opens outer (us.map (·.kind) ++ ks))
    (hpasses : ∀ ts' : List Token, ts'.head? = ts.head? → Passes outer (us ++ ts') →
      Passes rule ts') :
    Breaks finish outer opened previous (us ++ ts) f := by
  subst hopened hprevious
  cases h with
  | @atToken used t after hused hwaits hblocked =>
    rw [← openAfter_append, ← last_append] at hwaits ⊢
    rw [← List.append_assoc]
    refine .atToken ?_ hwaits fun after' hpass => hblocked after' ?_
    · rw [List.map_append]
      exact hopens _ hused
    · rw [List.append_assoc] at hpass
      exact hpasses _ (head?_append_congr rfl) hpass
  | atEnd hts hwaits =>
    rw [← openAfter_append, ← last_append] at hwaits ⊢
    refine .atEnd ?_ hwaits
    rw [List.map_append]
    exact hopens _ hts

end Breaks

/-- An operand is awaited: behind the given operator or sign, which is the token before, or else
in front of all tokens or behind a parenthesis or a comma. -/
def Awaits (opened : List Span) (operator previous : Option Token) : Prop :=
  match operator with
  | some p => previous = some p ∧ p.isOperator = true
  | none => ∀ p ∈ previous, opened ≠ [] ∧ p.isOperator = false ∧ p.kind.endsOperand = false ∧
      p.is .dot = false

theorem awaits_start : Awaits [] none none := fun _ h => absurd h (Option.not_mem_none _)

theorem Awaits.waits {opened : List Span} {operator previous : Option Token}
    (h : Awaits opened operator previous) : Waits opened previous := by
  intro p hp
  cases operator with
  | some q =>
    obtain ⟨rfl, hop⟩ := h
    cases hp
    exact .inl hop
  | none => exact .inr (.inr (h p hp).1)

theorem awaits_operator {p : Token} (opened : List Span) (h : p.isOperator = true) :
    Awaits opened (some p) (some p) := ⟨rfl, h⟩

theorem awaits_separator {p : Token} (opening : Span) (outside : List Span)
    (h : p.kind = .symbol .openParen ∨ p.kind = .symbol .comma) :
    Awaits (opening :: outside) none (some p) := by
  rintro _ ⟨⟩
  refine ⟨List.cons_ne_nil _ _, ?_⟩
  obtain h | h := h <;>
    simp [isOperator, BinaryOp.ofKind?, BinaryOp.ofSymbol?, isSign, TokenKind.isSign, Symbol.isSign,
      TokenKind.endsOperand, Token.is, h]

theorem faultAtEnd_of_awaits {opened : List Span} {operator previous : Option Token}
    (h : Awaits opened operator previous) (finish : Nat) :
    faultAtEnd finish opened previous = endOfInput finish opened operator := by
  cases operator with
  | some p =>
    obtain ⟨rfl, hop⟩ := h
    simp [faultAtEnd, hop, endOfInput, noOperand]
  | none =>
    cases previous with
    | none => cases opened <;> rfl
    | some p =>
      obtain ⟨-, hop, -, hdot⟩ := h p rfl
      cases opened <;> simp [faultAtEnd, hop, hdot, endOfInput, noOperand]

theorem faultAt_of_awaits {opened : List Span} {operator previous : Option Token}
    (h : Awaits opened operator previous) (t : Token) (after : List Token) :
    faultAt opened previous t after =
      if (t.is .closeParen || t.is .comma) && operator.isSome then noOperand operator t.span
      else unexpected t := by
  cases operator with
  | some p =>
    obtain ⟨rfl, hop⟩ := h
    simp [faultAt, hop, endsOperand_eq_false hop, noOperand]
  | none =>
    cases previous with
    | none => simp [faultAt]
    | some p =>
      obtain ⟨-, hop, hend, -⟩ := h p rfl
      simp [faultAt, hop, hend]

theorem faultAtEnd_of_dot {dot : Token} (h : dot.kind = .symbol .dot) (finish : Nat)
    (opened : List Span) :
    faultAtEnd finish opened (some dot) = ⟨.malformed none, Span.point finish⟩ := by
  simp [faultAtEnd, isOperator, BinaryOp.ofKind?, BinaryOp.ofSymbol?, isSign, TokenKind.isSign,
    Symbol.isSign, Token.is, h]

theorem not_operator_of_endsOperand {p : Token} (h : p.kind.endsOperand = true) :
    p.isOperator = false ∧ p.is .dot = false := by
  constructor
  · rw [← Bool.not_eq_true]
    intro hop
    rw [endsOperand_eq_false hop] at h
    cases h
  · rw [is_eq_false_iff]
    intro hk
    rw [hk] at h
    cases h

/-- Behind an operand of a group or an argument list, the closing parenthesis is missed. -/
theorem faultAt_of_endsOperand {p : Token} (h : p.kind.endsOperand = true) (opening : Span)
    (opened : List Span) (t : Token) (after : List Token) :
    faultAt (opening :: opened) (some p) t after = unbalanced t.span := by
  simp [faultAt, not_operator_of_endsOperand h, h]

theorem faultAtEnd_of_endsOperand {p : Token} (h : p.kind.endsOperand = true) (finish : Nat)
    (opening : Span) (opened : List Span) :
    faultAtEnd finish (opening :: opened) (some p) = unbalanced opening := by
  simp [faultAtEnd, not_operator_of_endsOperand h]

/-- No operand starts with a symbol other than an opening parenthesis. -/
theorem leftover_atom_symbol {t : Token} {s : Symbol} (hk : t.kind = .symbol s)
    (hs : s ≠ .openParen) (finish : Nat) (opened : List Span) (operator : Option Token)
    (ts : List Token) :
    leftover (atom finish opened operator (t :: ts)) =
      .error (if (t.is .closeParen || t.is .comma) && operator.isSome then
        noOperand operator t.span else unexpected t) := by
  rw [leftover_atom_cons, hk]
  cases operator <;> cases s <;> simp [Token.is, hk] at hs ⊢

namespace Breaks
variable {finish : Nat} {opened : List Span} {operator previous : Option Token} {f : Failure}
  {t : Token} {us ts : List Token}

theorem noOperand {s : Symbol} (hk : t.kind = .symbol s) (hs : s ≠ .openParen)
    (h : Awaits opened operator previous) (after : List Token) :
    Breaks finish .atom opened previous (t :: after)
      (if (t.is .closeParen || t.is .comma) && operator.isSome then
        Recognizer.noOperand operator t.span else unexpected t) := by
  rw [← faultAt_of_awaits h t after]
  refine .first after h.waits ?_
  rintro after' ⟨rest, hread⟩
  cases hread with
  | number hk' | identifier hk' | call hk' => cases hk.symm.trans hk'
  | group hk' =>
    cases hk.symm.trans hk'
    exact hs rfl

/-- The closing parenthesis is missed behind an operand. -/
theorem of_close {rule : Rule} {opening : Span} {outside : List Span} {p : Token}
    (hclose : leftover (close opening ts) = .error f)
    (hopen : openAfter opened us = opening :: outside) (hlast : last previous us = some p)
    (hend : p.kind.endsOperand = true) (hopens : Opens rule (us.map (·.kind)))
    (hpasses : ∀ ts' : List Token, ts'.head? = ts.head? →
      Avoids [.closeParen] ts' → ¬ Passes rule (us ++ ts')) :
    Breaks finish rule opened previous (us ++ ts) f := by
  have hwaits : Waits (openAfter opened us) (last previous us) := by
    rw [hopen]
    exact fun _ _ => .inr (.inr (List.cons_ne_nil _ _))
  cases ts with
  | nil =>
    cases hclose
    rw [List.append_nil, ← faultAtEnd_of_endsOperand hend finish opening outside, ← hopen, ← hlast]
    exact .atEnd hopens hwaits
  | cons t ts =>
    rw [leftover_close_cons] at hclose
    split at hclose
    · cases hclose
    · next ht =>
      cases hclose
      rw [← faultAt_of_endsOperand hend opening outside t ts, ← hopen, ← hlast]
      exact .atToken hopens hwaits fun after' => hpasses _ rfl (avoids_of_not_is ht after')

theorem expr_of_term (h : Breaks finish .term opened previous ts f) :
    Breaks finish .expr opened previous ts f := by
  refine behind [] h rfl rfl ?_ ?_
  · rintro ks ⟨ls, hd⟩
    exact ⟨ls, by simpa [Rule.lead] using Derives.expr hd .noOperand⟩
  · rintro ts' - ⟨rest, hread⟩
    cases hread with
    | expr hterm _ => exact ⟨_, hterm⟩

theorem expr_of_operands (hus : Takes .term us ts)
    (h : Breaks finish .operands opened (last previous us) ts f) :
    Breaks finish .expr opened previous (us ++ ts) f := by
  refine h.behind us (hus.open_eq opened) rfl ?_ ?_
  · rintro ks ⟨ls, hd⟩
    exact ⟨ls, by simpa [Rule.lead] using Derives.expr hus.derives hd⟩
  · rintro ts' hhead ⟨rest, hread⟩
    generalize hx : us ++ ts' = x at hread
    cases hread with
    | expr hterm hops =>
      subst hx
      obtain rfl := (hus.reads ts' hhead).unique hterm nofun
      exact ⟨_, hops⟩

theorem not_stop {op : Symbol} (hmem : op ∈ binaryOperators) (hk : t.kind = .symbol op) :
    ¬ Avoids binaryOperators (t :: ts) := fun h => avoids_cons.mp h op hmem hk

theorem operands_of_term {op : Symbol} (hmem : op ∈ binaryOperators) (hk : t.kind = .symbol op)
    (h : Breaks finish .term opened (some t) ts f) :
    Breaks finish .operands opened previous (t :: ts) f := by
  have hopen : openStep opened t = opened :=
    openStep_eq opened hk (isParen_operator (List.mem_append_left _ hmem))
  refine behind [t] h hopen rfl ?_ ?_
  · rintro ks ⟨ls, hd⟩
    refine ⟨ls, ?_⟩
    rw [List.map_singleton, hk]
    simpa [Rule.lead] using Derives.operand hmem hd .noOperand
  · rintro ts' - ⟨rest, hread⟩
    cases hread with
    | stop hstop => exact absurd hstop (not_stop hmem hk)
    | operand _ _ hterm => exact ⟨_, hterm⟩

theorem operands_of_operands {op : Symbol} (hmem : op ∈ binaryOperators)
    (hk : t.kind = .symbol op) (hus : Takes .term us ts)
    (h : Breaks finish .operands opened (last (some t) us) ts f) :
    Breaks finish .operands opened previous (t :: (us ++ ts)) f := by
  have hopen : openAfter opened (t :: us) = opened := by
    rw [openAfter_single opened hk (isParen_operator (List.mem_append_left _ hmem)), hus.open_eq]
  refine behind (t :: us) h hopen (last_append previous [t] us) ?_ ?_
  · rintro ks ⟨ls, hd⟩
    refine ⟨ls, ?_⟩
    rw [List.map_cons, hk]
    simpa [Rule.lead] using Derives.operand hmem hus.derives hd
  · rintro ts' hhead ⟨rest, hread⟩
    generalize hx : t :: us ++ ts' = x at hread
    cases hread with
    | stop hstop => exact absurd hstop (hx ▸ not_stop hmem hk)
    | operand _ _ hterm hops =>
      obtain ⟨rfl, rfl⟩ := List.cons.inj hx
      obtain rfl := (hus.reads ts' hhead).unique hterm nofun
      exact ⟨_, hops⟩

theorem term_of_atom (ht : t.isSign = false) (h : Breaks finish .atom opened previous (t :: ts) f) :
    Breaks finish .term opened previous (t :: ts) f := by
  refine behind [] h rfl rfl ?_ ?_
  · rintro ks ⟨ls, hd⟩
    exact ⟨ls, .unsigned hd⟩
  · rintro ts' hhead ⟨rest, hread⟩
    cases hread with
    | unsigned hatom => exact ⟨_, hatom⟩
    | signed hmem hk =>
      cases hhead
      rw [isSign_iff.mpr ⟨_, hmem, hk⟩] at ht
      cases ht

theorem term_of_signed {s : Symbol} (hmem : s ∈ signs) (hk : t.kind = .symbol s)
    (h : Breaks finish .atom opened (some t) ts f) :
    Breaks finish .term opened previous (t :: ts) f := by
  have hopen : openStep opened t = opened :=
    openStep_eq opened hk (isParen_operator (List.mem_append_right _ hmem))
  refine behind [t] h hopen rfl ?_ ?_
  · rintro ks ⟨ls, hd⟩
    refine ⟨ls, ?_⟩
    rw [List.map_singleton, hk]
    exact .signed hmem hd
  · rintro ts' - ⟨rest, hread⟩
    cases hread with
    | signed _ _ hatom => exact ⟨_, hatom⟩
    | unsigned hatom =>
      have hsign := hatom.isSign_eq_false
      rw [isSign_iff.mpr ⟨_, hmem, hk⟩] at hsign
      cases hsign

theorem atom_of_expr (hk : t.kind = .symbol .openParen)
    (h : Breaks finish .expr (t.span :: opened) (some t) ts f) :
    Breaks finish .atom opened previous (t :: ts) f := by
  refine behind [t] h (openStep_open opened hk) rfl ?_ ?_
  · rintro ks ⟨ls, hd⟩
    refine ⟨ls ++ [.symbol .closeParen], ?_⟩
    rw [List.map_singleton, hk]
    simpa [Rule.lead] using Derives.group hd
  · rintro ts' - ⟨rest, hread⟩
    cases hread with
    | number hk' | identifier hk' | call hk' => cases hk.symm.trans hk'
    | group _ hexpr => exact ⟨_, hexpr⟩

/-- The group is not closed behind its expression. -/
theorem atom_of_close (hk : t.kind = .symbol .openParen) (hus : Takes .expr us ts)
    (h : leftover (close t.span ts) = .error f) :
    Breaks finish .atom opened previous (t :: (us ++ ts)) f := by
  obtain ⟨init, p, rfl, hend⟩ := hus.exists_last
  have hopen : openAfter opened (t :: (init ++ [p])) = t.span :: opened := by
    rw [openAfter_cons, openStep_open opened hk, hus.open_eq]
  refine of_close h hopen (last_append_singleton previous (t :: init) p) hend ?_ ?_
  · refine ⟨[.symbol .closeParen], ?_⟩
    rw [List.map_cons, hk]
    exact .group hus.derives
  · rintro ts' hhead hts ⟨rest, hread⟩
    generalize hx : t :: (init ++ [p]) ++ ts' = x at hread
    cases hread with
    | group _ hexpr hclose =>
      obtain ⟨rfl, rfl⟩ := List.cons.inj hx
      obtain rfl := (hus.reads ts' hhead).unique hexpr nofun
      exact avoids_cons.mp hts _ (List.mem_singleton_self _) hclose
    | number hk' | identifier hk' | call hk' =>
      obtain ⟨rfl, -⟩ := List.cons.inj hx
      cases hk.symm.trans hk'

theorem atom_of_call {dot : Token} (hk : t.kind = .identifier "Math")
    (hdot : dot.kind = .symbol .dot) (h : Breaks finish .call opened (some dot) ts f) :
    Breaks finish .atom opened previous (t :: dot :: ts) f := by
  have hopen : openAfter opened [t, dot] = opened := by
    rw [openAfter_single opened hk rfl, openAfter_single opened hdot rfl, openAfter_nil]
  refine behind [t, dot] h hopen rfl ?_ ?_
  · rintro ks ⟨ls, hd⟩
    refine ⟨ls, ?_⟩
    rw [List.map_cons, List.map_singleton, hk, hdot]
    exact .call hd
  · rintro ts' - ⟨rest, hread⟩
    cases hread with
    | call _ _ hcall => exact ⟨_, hcall⟩
    | number hk' | group hk' => cases hk.symm.trans hk'
    | identifier hk' hrest =>
      refine absurd hdot (avoids_cons.mp (hrest ?_) _ (List.mem_singleton_self _))
      exact TokenKind.identifier.inj (hk'.symm.trans hk)

theorem call_of_name {dot : Token} (hdot : dot.kind = .symbol .dot)
    (ht : ∀ name, t.kind ≠ .identifier name) (after : List Token) :
    Breaks finish .call opened (some dot) (t :: after) (unexpected t) := by
  have hfault : faultAt opened (some dot) t after = unexpected t := by
    simp [faultAt, isOperator, BinaryOp.ofKind?, BinaryOp.ofSymbol?, isSign, TokenKind.isSign,
      Symbol.isSign, TokenKind.endsOperand, hdot]
  have hwaits : Waits opened (some dot) := by
    rintro _ ⟨⟩
    exact .inr (.inl (is_iff.mpr hdot))
  rw [← hfault]
  refine .first after hwaits ?_
  rintro after' ⟨rest, hread⟩
  cases hread with
  | bare hk | noArgument hk | called hk => exact ht _ hk

theorem call_of_arguments {name : String} {opening : Token} (hk : t.kind = .identifier name)
    (hopening : opening.kind = .symbol .openParen) (hts : Avoids [.closeParen] ts)
    (h : Breaks finish .arguments (opening.span :: opened) (some opening) ts f) :
    Breaks finish .call opened previous (t :: opening :: ts) f := by
  have hopen : openAfter opened [t, opening] = opening.span :: opened := by
    rw [openAfter_single opened hk rfl, openAfter_cons, openStep_open opened hopening, openAfter_nil]
  refine behind [t, opening] h hopen rfl ?_ ?_
  · rintro ks ⟨ls, hd⟩
    refine ⟨ls ++ [.symbol .closeParen], ?_⟩
    rw [List.map_cons, List.map_singleton, hk, hopening]
    simpa [Rule.lead] using Derives.called name hd
  · rintro ts' hhead ⟨rest, hread⟩
    cases hread with
    | bare _ hstop =>
      exact absurd hopening (avoids_cons.mp hstop _ (List.mem_singleton_self _))
    | noArgument _ _ hclose =>
      exact absurd hclose (hts _ (by rw [← hhead]; rfl) _ (List.mem_singleton_self _))
    | called _ _ hargs hclose => exact ⟨_, _, hclose, hargs⟩

theorem arguments_of_expr (h : Breaks finish .expr opened previous ts f) :
    Breaks finish .arguments opened previous ts f := by
  refine behind [] h rfl rfl ?_ ?_
  · rintro ks ⟨ls, hd⟩
    exact ⟨ls, .argument hd⟩
  · rintro ts' - ⟨close, rest, -, hread⟩
    cases hread with
    | argument hexpr | moreArguments hexpr => exact ⟨_, hexpr⟩

/-- The list is not closed behind an argument. -/
theorem arguments_of_close {opening : Span} {outside : List Span} (hus : Takes .expr us ts)
    (hts : Avoids [.comma] ts) (h : leftover (close opening ts) = .error f) :
    Breaks finish .arguments (opening :: outside) previous (us ++ ts) f := by
  obtain ⟨init, p, rfl, hend⟩ := hus.exists_last
  refine of_close h (hus.open_eq _) (last_append_singleton previous init p) hend ?_ ?_
  · exact ⟨[], by simpa [Rule.lead] using Derives.argument hus.derives⟩
  · rintro ts' hhead hclosing ⟨close, rest, hclose, hread⟩
    generalize hx : init ++ [p] ++ ts' = x at hread
    cases hread with
    | argument hexpr =>
      subst hx
      obtain rfl := (hus.reads ts' hhead).unique hexpr nofun
      exact avoids_cons.mp hclosing _ (List.mem_singleton_self _) hclose
    | moreArguments hexpr hcomma =>
      subst hx
      obtain rfl := (hus.reads ts' hhead).unique hexpr nofun
      exact hts _ (by rw [← hhead]; rfl) _ (List.mem_singleton_self _) hcomma

theorem arguments_of_arguments {comma : Token} (hus : Takes .expr us (comma :: ts))
    (hcomma : comma.kind = .symbol .comma) (h : Breaks finish .arguments opened (some comma) ts f) :
    Breaks finish .arguments opened previous (us ++ comma :: ts) f := by
  have hopen : openAfter opened (us ++ [comma]) = opened := by
    rw [openAfter_append, hus.open_eq, openAfter_single opened hcomma rfl, openAfter_nil]
  have hbehind : Breaks finish .arguments opened previous ((us ++ [comma]) ++ ts) f := by
    refine h.behind (us ++ [comma]) hopen (last_append_singleton previous us comma) ?_ ?_
    · rintro ks ⟨ls, hd⟩
      refine ⟨ls, ?_⟩
      rw [List.map_append, List.map_singleton, hcomma]
      simpa [Rule.lead] using Derives.moreArguments hus.derives hd
    · rintro ts' hhead ⟨close, rest, hclose, hread⟩
      rw [List.append_assoc, List.singleton_append] at hread
      generalize hx : us ++ comma :: ts' = x at hread
      cases hread with
      | argument hexpr =>
        subst hx
        obtain ⟨rfl, -⟩ := List.cons.inj ((hus.reads (comma :: ts') rfl).unique hexpr nofun)
        cases hcomma.symm.trans hclose
      | moreArguments hexpr _ hargs =>
        subst hx
        obtain ⟨rfl, rfl⟩ := List.cons.inj ((hus.reads (comma :: ts') rfl).unique hexpr nofun)
        exact ⟨close, rest, hclose, hargs⟩
  rwa [List.append_assoc] at hbehind

end Breaks

end Recognizer

end Reckon
