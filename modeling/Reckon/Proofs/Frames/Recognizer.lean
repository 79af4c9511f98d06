import Reckon.Expression
import Reckon.Proofs.Frames

/-! The check with bounded stacks: one of calls that are active, one of open parentheses. The count
of parentheses in front of the descent bounds both, so that neither runs out of room. -/
namespace Reckon
open Token

/-- The check as a run: the parentheses first, then the form. -/
theorem Expression.map_tokens_ofTokens? (limits : Limits) (ts : List Token) :
    (ofTokens? limits ts).map (·.tokens) = do
      Recognizer.balance limits.effectiveDepth 0 ts
      Recognizer.sentence ts
      return ts := by
  cases hbalance : Recognizer.balance limits.effectiveDepth 0 ts with
  | error f =>
    rw [ofTokens?_eq_error_of_balance hbalance]
    rfl
  | ok =>
    cases hsentence : Recognizer.sentence ts with
    | error f =>
      rw [ofTokens?_eq_error hbalance hsentence]
      rfl
    | ok =>
      obtain ⟨e, he⟩ := exists_ofTokens?_iff.mpr ⟨hbalance, hsentence⟩
      rw [he]
      exact congrArg Except.ok (tokens_of_ofTokens? he)

namespace Recognizer

def push (entries : Nat) (opening : Span) (opened : List Span) : Except Stop (List Span) :=
  if opened.length < entries then .ok (opening :: opened) else .error .exceeded

mutual

/-- `expr` with `frames` calls of it, and `entries` open parentheses, at most. -/
def exprWithin (entries finish frames : Nat) (opened : List Span) (ts : List Token) :
    Except Stop (Shorter ts) :=
  match frames with
  | 0 => .error .exceeded
  | frames + 1 => do
    let ⟨rest, h⟩ ← termWithin entries finish frames opened none ts
    return Shorter.transLe ⟨rest, h⟩ (← operandsWithin entries finish frames opened rest)
termination_by (ts.length, 3)

def operandsWithin (entries finish frames : Nat) (opened : List Span) (ts : List Token) :
    Except Stop (NoLonger ts) :=
  match ts with
  | [] => .ok (.refl [])
  | t :: rest =>
    if (BinaryOp.ofKind? t.kind).isSome then do
      let ⟨rest, h⟩ ← termWithin entries finish frames opened (some t) rest
      let left := Shorter.transLe ⟨rest, h⟩ (← operandsWithin entries finish frames opened rest)
      return (Shorter.cons t left).toNoLonger
    else .ok (.refl (t :: rest))
termination_by (ts.length, 0)

def termWithin (entries finish frames : Nat) (opened : List Span) (operator : Option Token)
    (ts : List Token) : Except Stop (Shorter ts) :=
  match ts with
  | [] => atomWithin entries finish frames opened operator []
  | t :: rest =>
    if t.isSign then do
      return Shorter.cons t (← atomWithin entries finish frames opened (some t) rest)
    else atomWithin entries finish frames opened operator (t :: rest)
termination_by (ts.length, 2)

def atomWithin (entries finish frames : Nat) (opened : List Span) (operator : Option Token)
    (ts : List Token) : Except Stop (Shorter ts) :=
  match ts with
  | [] => .error (.failed (endOfInput finish opened operator))
  | t :: rest =>
    match t.kind with
    | .number _ => .ok (.tail t rest)
    | .identifier _ =>
      match rest with
      | dot :: rest' =>
        if t.isMath && dot.is .dot then do
          return Shorter.cons t (Shorter.cons dot (← callWithin entries finish frames opened rest'))
        else .ok (.tail t (dot :: rest'))
      | [] => .ok (.tail t [])
    | .symbol .openParen => do
      let opened ← push entries t.span opened
      let ⟨rest, h⟩ ← exprWithin entries finish frames opened rest
      return Shorter.cons t (Shorter.trans ⟨rest, h⟩ (← unbounded (close t.span rest)))
    | .symbol .closeParen | .symbol .comma =>
      if operator.isSome then .error (.failed (noOperand operator t.span))
      else .error (.failed (unexpected t))
    | _ => .error (.failed (unexpected t))
termination_by (ts.length, 1)

def callWithin (entries finish frames : Nat) (opened : List Span) (ts : List Token) :
    Except Stop (Shorter ts) :=
  match ts with
  | [] => .error (.failed ⟨.malformed none, Span.point finish⟩)
  | name :: rest =>
    match name.kind with
    | .identifier _ =>
      match rest with
      | [] => .ok (.tail name [])
      | opening :: rest' =>
        if opening.is .openParen then do
          let opened ← push entries opening.span opened
          let left ← listWithin entries finish frames opened opening.span rest'
          return Shorter.cons name (Shorter.cons opening left)
        else .ok (.tail name (opening :: rest'))
    | _ => .error (.failed (unexpected name))
termination_by (ts.length, 0)

/-- The parenthesis is on the stack before it is known whether arguments follow. -/
def listWithin (entries finish frames : Nat) (opened : List Span) (opening : Span)
    (ts : List Token) : Except Stop (Shorter ts) :=
  match ts with
  | [] => argumentsWithin entries finish frames opened opening []
  | t :: rest =>
    if t.is .closeParen then .ok (.tail t rest)
    else argumentsWithin entries finish frames opened opening (t :: rest)
termination_by (ts.length, 5)

def argumentsWithin (entries finish frames : Nat) (opened : List Span) (opening : Span)
    (ts : List Token) : Except Stop (Shorter ts) := do
  let ⟨rest, h⟩ ← exprWithin entries finish frames opened ts
  match rest, h with
  | [], _ => .error (.failed (unbalanced opening))
  | t :: rest', h =>
    let left : Shorter ts := ⟨t :: rest', h⟩
    if t.is .comma then do
      have _ : rest'.length < ts.length := Shorter.lt_of_cons h
      return left.trans
        (Shorter.cons t (← argumentsWithin entries finish frames opened opening rest'))
    else do
      return left.trans (← unbounded (close opening (t :: rest')))
termination_by (ts.length, 4)

end

def sentenceWithin (entries frames : Nat) (ts : List Token) : Except Stop Unit := do
  let ⟨rest, _⟩ ← exprWithin entries (Token.finish ts) frames [] ts
  match rest with
  | [] => return
  | t :: rest =>
    let last := (t :: rest).getLast (List.cons_ne_nil _ _)
    .error (.failed ⟨.trailing (Token.joinLexemes (t :: rest)), t.span.merge last.span⟩)

def checkWithin (entries frames : Nat) (limits : Limits) (ts : List Token) :
    Except Stop (List Token) := do
  unbounded (balance limits.effectiveDepth 0 ts)
  sentenceWithin entries frames ts
  return ts

section agrees
variable {entries finish : Nat}

private theorem push_of_fits {t : Token} {ts : List Token} {opened : List Span}
    (h : Fits entries opened.length (t :: ts)) (hk : t.kind = .symbol .openParen) :
    push entries t.span opened = .ok (t.span :: opened) :=
  if_pos (h.behind_open hk).1

private theorem room_of_fits {t : Token} {ts : List Token} {opened : List Span} {frames : Nat}
    (h : Fits entries opened.length (t :: ts)) (hk : t.kind = .symbol .openParen)
    (hroom : entries - opened.length ≤ frames) :
    Fits entries (t.span :: opened).length ts ∧ entries - (t.span :: opened).length < frames := by
  obtain ⟨hdepth, hinner⟩ := h.behind_open hk
  refine ⟨hinner, ?_⟩
  rw [List.length_cons]
  omega

theorem arguments_nil (opened : List Span) (opening : Span) :
    arguments finish (opening :: opened) opening [] = .error (unbalanced opening) := by
  rw [arguments, expr, term, atom]
  rfl

mutual

theorem agrees_expr : (ts : List Token) → {frames : Nat} → {opened : List Span} →
    Fits entries opened.length ts → entries - opened.length < frames →
    Agrees (fun left => Fits entries opened.length left.1)
      (exprWithin entries finish frames opened ts) (expr finish opened ts)
  | ts, 0, opened, hts, hframes => by omega
  | ts, frames + 1, opened, hts, hframes => by
    have hroom : entries - opened.length ≤ frames := by omega
    rw [exprWithin, expr]
    refine (agrees_term ts hts hroom).bind fun ⟨rest, h⟩ hrest => ?_
    exact (agrees_operands rest hrest hroom).bind fun left hleft => .ok hleft
termination_by ts => (ts.length, 3)

theorem agrees_operands : (ts : List Token) → {frames : Nat} → {opened : List Span} →
    Fits entries opened.length ts → entries - opened.length ≤ frames →
    Agrees (fun left => Fits entries opened.length left.1)
      (operandsWithin entries finish frames opened ts) (operands finish opened ts)
  | [], frames, opened, hts, hroom => by
    rw [operandsWithin, operands]
    exact .ok hts
  | t :: ts, frames, opened, hts, hroom => by
    rw [operandsWithin, operands]
    by_cases hop : (BinaryOp.ofKind? t.kind).isSome
    · rw [if_pos hop, if_pos hop]
      obtain ⟨op, hop⟩ := Option.isSome_iff_exists.mp hop
      refine (agrees_term ts (hts.behind_operator hop) hroom).bind fun ⟨rest, h⟩ hrest => ?_
      exact (agrees_operands rest hrest hroom).bind fun left hleft => .ok hleft
    · rw [if_neg hop, if_neg hop]
      exact .ok hts
termination_by ts => (ts.length, 0)

theorem agrees_term : (ts : List Token) → {frames : Nat} → {opened : List Span} →
    {operator : Option Token} → Fits entries opened.length ts →
    entries - opened.length ≤ frames →
    Agrees (fun left => Fits entries opened.length left.1)
      (termWithin entries finish frames opened operator ts) (term finish opened operator ts)
  | [], frames, opened, operator, hts, hroom => by
    rw [termWithin, term]
    exact agrees_atom [] hts hroom
  | t :: ts, frames, opened, operator, hts, hroom => by
    rw [termWithin, term]
    by_cases hsign : t.isSign = true
    · rw [if_pos hsign, if_pos hsign]
      exact (agrees_atom ts (hts.behind_sign hsign) hroom).bind fun left hleft => .ok hleft
    · rw [if_neg hsign, if_neg hsign]
      exact agrees_atom (t :: ts) hts hroom
termination_by ts => (ts.length, 2)

theorem agrees_atom : (ts : List Token) → {frames : Nat} → {opened : List Span} →
    {operator : Option Token} → Fits entries opened.length ts →
    entries - opened.length ≤ frames →
    Agrees (fun left => Fits entries opened.length left.1)
      (atomWithin entries finish frames opened operator ts) (atom finish opened operator ts)
  | [], frames, opened, operator, hts, hroom => by
    rw [atomWithin, atom]
    exact .failed _
  | t :: ts, frames, opened, operator, hts, hroom => by
    rw [atomWithin.eq_def, atom.eq_def]
    dsimp only
    cases hk : t.kind with
    | number x => exact .ok (hts.behind (by simp [hk]) (by simp [hk]))
    | identifier name =>
      have hbehind : Fits entries opened.length ts := hts.behind (by simp [hk]) (by simp [hk])
      cases ts with
      | nil => exact .ok hbehind
      | cons dot ts =>
        dsimp only
        by_cases hmath : (t.isMath && dot.is .dot) = true
        · rw [if_pos hmath, if_pos hmath]
          have hdot : dot.kind = .symbol .dot := is_iff.mp (Bool.and_eq_true_iff.mp hmath).2
          have hmember : Fits entries opened.length ts :=
            hbehind.behind (by simp [hdot]) (by simp [hdot])
          exact (agrees_call ts hmember hroom).bind fun left hleft => .ok hleft
        · rw [if_neg hmath, if_neg hmath]
          exact .ok hbehind
    | symbol s =>
      cases s with
      | openParen =>
        obtain ⟨hinner, hroom'⟩ := room_of_fits hts hk hroom
        dsimp only
        rw [push_of_fits hts hk]
        refine (agrees_expr ts hinner hroom').bind fun ⟨rest, h⟩ hrest => ?_
        exact (Agrees.of_run fun left => hrest.behind_closing).bind fun left hleft => .ok hleft
      | closeParen | comma =>
        dsimp only
        split <;> exact .failed _
      | _ => exact .failed _
termination_by ts => (ts.length, 1)

theorem agrees_call : (ts : List Token) → {frames : Nat} → {opened : List Span} →
    Fits entries opened.length ts → entries - opened.length ≤ frames →
    Agrees (fun left => Fits entries opened.length left.1)
      (callWithin entries finish frames opened ts) (call finish opened ts)
  | [], frames, opened, hts, hroom => by
    rw [callWithin, call]
    exact .failed _
  | name :: ts, frames, opened, hts, hroom => by
    rw [callWithin.eq_def, call.eq_def]
    dsimp only
    cases hk : name.kind with
    | number x => exact .failed _
    | symbol s => exact .failed _
    | identifier n =>
      have hbehind : Fits entries opened.length ts := hts.behind (by simp [hk]) (by simp [hk])
      cases ts with
      | nil => exact .ok hbehind
      | cons opening ts =>
        dsimp only
        by_cases hopen : opening.is .openParen = true
        · rw [if_pos hopen, if_pos hopen, push_of_fits hbehind (is_iff.mp hopen)]
          obtain ⟨hinner, hroom'⟩ := room_of_fits hbehind (is_iff.mp hopen) hroom
          have hargs : Agrees _ (argumentsWithin entries finish frames _ opening.span ts) _ :=
            agrees_arguments ts hinner hroom'
          cases ts with
          | nil =>
            rw [arguments_nil] at hargs
            have hfailed := hargs.eq_unbounded
            show Agrees _ (listWithin entries finish frames _ _ [] >>= _) _
            rw [listWithin, hfailed]
            exact .failed _
          | cons t ts =>
            show Agrees _ (listWithin entries finish frames _ _ (t :: ts) >>= _) _
            rw [listWithin]
            dsimp only
            by_cases hclose : t.is .closeParen = true
            · rw [if_pos hclose, if_pos hclose]
              exact .ok (Fits.behind_close hinner (is_iff.mp hclose))
            · rw [if_neg hclose, if_neg hclose]
              exact hargs.bind fun left hleft => .ok hleft
        · rw [if_neg hopen, if_neg hopen]
          exact .ok hbehind
termination_by ts => (ts.length, 0)

theorem agrees_arguments : (ts : List Token) → {frames : Nat} → {opened : List Span} →
    {s opening : Span} → Fits entries (s :: opened).length ts →
    entries - (s :: opened).length < frames →
    Agrees (fun left => Fits entries opened.length left.1)
      (argumentsWithin entries finish frames (s :: opened) opening ts)
      (arguments finish (s :: opened) opening ts)
  | ts, frames, opened, s, opening, hts, hframes => by
    rw [argumentsWithin, arguments]
    refine (agrees_expr ts hts hframes).bind fun ⟨rest, h⟩ hrest => ?_
    cases rest with
    | nil => exact .failed _
    | cons t rest =>
      dsimp only
      by_cases hcomma : t.is .comma = true
      · rw [if_pos hcomma, if_pos hcomma]
        have hk : t.kind = .symbol .comma := is_iff.mp hcomma
        have hbehind : Fits entries (s :: opened).length rest :=
          hrest.behind (by simp [hk]) (by simp [hk])
        have hlt : rest.length < ts.length := Shorter.lt_of_cons h
        exact (agrees_arguments rest hbehind hframes).bind fun left hleft => .ok hleft
      · rw [if_neg hcomma, if_neg hcomma]
        have hclose := Agrees.of_run fun left (h : close opening (t :: rest) = .ok left) =>
          hrest.behind_closing h
        exact hclose.bind fun left hleft => .ok hleft
termination_by ts => (ts.length, 4)

end

end agrees

theorem sentenceWithin_eq {entries frames : Nat} {ts : List Token} (hts : Fits entries 0 ts)
    (hframes : entries < frames) : sentenceWithin entries frames ts = unbounded (sentence ts) := by
  have hexpr : Agrees (fun left => Fits entries 0 left.1)
      (exprWithin entries (Token.finish ts) frames [] ts) (expr (Token.finish ts) [] ts) :=
    @agrees_expr _ _ ts _ [] hts hframes
  have hsentence : Agrees (fun _ => True) (sentenceWithin entries frames ts) (sentence ts) := by
    unfold sentenceWithin sentence
    refine hexpr.bind fun ⟨rest, h⟩ _ => ?_
    cases rest with
    | nil => exact .ok trivial
    | cons t rest => exact .failed _
  exact hsentence.eq_unbounded

/-- With `d` the depth that is enforced, the check has room in `d` entries for open parentheses and
in `d + 1` frames. -/
theorem checkWithin_eq (limits : Limits) (ts : List Token) :
    checkWithin limits.effectiveDepth (limits.effectiveDepth + 1) limits ts =
      unbounded ((Expression.ofTokens? limits ts).map (·.tokens)) := by
  rw [checkWithin, Expression.map_tokens_ofTokens?]
  cases hbalance : balance limits.effectiveDepth 0 ts with
  | error f => rfl
  | ok =>
    rw [sentenceWithin_eq hbalance (Nat.lt_succ_self _)]
    cases sentence ts <;> rfl

section exceeded
variable {entries finish : Nat} {parens ts : List Token}

private theorem atomWithin_open {t : Token} {frames : Nat} {opened : List Span}
    {operator : Option Token} (hk : t.kind = .symbol .openParen)
    (h : opened.length < entries →
      exprWithin entries finish frames (t.span :: opened) ts = .error .exceeded) :
    atomWithin entries finish frames opened operator (t :: ts) = .error .exceeded := by
  rw [atomWithin.eq_def]
  dsimp only
  rw [hk]
  dsimp only
  by_cases hroom : opened.length < entries
  · rw [push, if_pos hroom]
    show exprWithin entries finish frames (t.span :: opened) ts >>= _ = _
    rw [h hroom]
    rfl
  · rw [push, if_neg hroom]
    rfl

/-- The stacks are no larger than they are said to be: nested groups use them up. -/
theorem exprWithin_exceeded {frames : Nat} {opened : List Span}
    (hparens : ∀ t ∈ parens, t.kind = .symbol .openParen) (hopened : opened.length ≤ entries)
    (h : frames ≤ parens.length ∨ entries < opened.length + parens.length) :
    exprWithin entries finish frames opened (parens ++ ts) = .error .exceeded := by
  induction parens generalizing frames opened with
  | nil =>
    rw [List.length_nil] at h
    obtain rfl : frames = 0 := by omega
    rw [exprWithin]
  | cons t parens ih =>
    rw [List.length_cons] at h
    have hk : t.kind = .symbol .openParen := hparens t (List.mem_cons_self ..)
    have hsign : t.isSign = false := by simp [isSign, TokenKind.isSign, hk, Symbol.isSign]
    cases frames with
    | zero => rw [exprWithin]
    | succ frames =>
      have hatom : atomWithin entries finish frames opened none (t :: (parens ++ ts)) =
          .error .exceeded := by
        refine atomWithin_open hk fun hroom => ?_
        apply ih
        · exact fun u hu => hparens u (List.mem_cons_of_mem _ hu)
        · exact hroom
        · rw [List.length_cons]
          omega
      rw [List.cons_append, exprWithin, termWithin, if_neg (Bool.eq_false_iff.mp hsign), hatom]
      rfl

theorem fits_of_parens {limit depth : Nat} (hparens : ∀ t ∈ parens, t.kind = .symbol .openParen)
    (h : depth + parens.length ≤ limit) : Fits limit depth parens := by
  induction parens generalizing depth with
  | nil => rfl
  | cons t parens ih =>
    rw [List.length_cons] at h
    have hinner : Fits limit (depth + 1) parens := by
      apply ih
      · exact fun u hu => hparens u (List.mem_cons_of_mem _ hu)
      · omega
    have hroom : ¬ limit < depth + 1 := by omega
    rw [Fits, balance.eq_def]
    dsimp only
    rw [hparens t (List.mem_cons_self ..)]
    dsimp only
    rw [if_neg hroom]
    exact hinner

/-- Neither stack of the check can do with less room. -/
theorem exists_checkWithin_exceeded (limits : Limits) {frames : Nat}
    (h : entries < limits.effectiveDepth ∨ frames < limits.effectiveDepth + 1) :
    ∃ ts, checkWithin entries frames limits ts = .error .exceeded := by
  let opening : Token := ⟨.symbol .openParen, "(", ⟨0, 1⟩⟩
  let parens := List.replicate limits.effectiveDepth opening
  have hlength : parens.length = limits.effectiveDepth := List.length_replicate
  have hparens : ∀ t ∈ parens, t.kind = .symbol .openParen := by
    intro t ht
    rw [(List.mem_replicate.mp ht).2]
  have hbalance : balance limits.effectiveDepth 0 parens = .ok () :=
    fits_of_parens hparens (by omega)
  have hexpr : exprWithin entries (Token.finish parens) frames [] (parens ++ []) =
      .error .exceeded := by
    apply exprWithin_exceeded hparens
    · exact Nat.zero_le _
    · rw [List.length_nil]
      omega
  rw [List.append_nil] at hexpr
  refine ⟨parens, ?_⟩
  rw [checkWithin, hbalance, sentenceWithin, hexpr]
  rfl

end exceeded

end Recognizer
end Reckon
