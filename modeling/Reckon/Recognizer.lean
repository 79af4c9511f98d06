import Reckon.BinaryOp
import Reckon.Failure

/-! Recognition of expressions in a token sequence:

    Expr := Term (BinOp Term)*
    Term := ['+' | '-'] Atom
    Atom := Number | Call | Identifier | '(' Expr ')'
    Call := 'Math' '.' Identifier ['(' (Expr (',' Expr)*)? ')']

A first pass counts parentheses, a second one descends along the rules. A parenthesis that is never
closed is left to the descent, so that an earlier fault inside the group is reported first. -/
namespace Reckon

/-- What is left of a sequence of which at least one token was taken. -/
abbrev Shorter (ts : List Token) := { rest : List Token // rest.length < ts.length }

abbrev NoLonger (ts : List Token) := { rest : List Token // rest.length ≤ ts.length }

namespace Shorter

variable {ts : List Token}

abbrev tail (t : Token) (rest : List Token) : Shorter (t :: rest) := ⟨rest, Nat.lt_succ_self _⟩

abbrev cons (t : Token) (left : Shorter ts) : Shorter (t :: ts) :=
  ⟨left.1, Nat.lt_succ_of_lt left.2⟩

abbrev trans (left : Shorter ts) (last : Shorter left.1) : Shorter ts :=
  ⟨last.1, Nat.lt_trans last.2 left.2⟩

abbrev transLe (left : Shorter ts) (last : NoLonger left.1) : Shorter ts :=
  ⟨last.1, Nat.lt_of_le_of_lt last.2 left.2⟩

theorem lt_of_cons {t : Token} {rest : List Token} (h : (t :: rest).length < ts.length) :
    rest.length < ts.length :=
  Nat.lt_of_succ_lt h

abbrev toNoLonger (left : Shorter ts) : NoLonger ts := ⟨left.1, Nat.le_of_lt left.2⟩

end Shorter

abbrev NoLonger.refl (ts : List Token) : NoLonger ts := ⟨ts, Nat.le_refl _⟩

namespace Recognizer

def unbalanced (span : Span) : Failure := ⟨.unbalanced, span⟩

def unexpected (t : Token) : Failure :=
  ⟨.malformed (some ("at '" ++ t.lexeme ++ "'")), t.span⟩

/-- No operand follows: the fault of the operator or sign before, if there is one. -/
def noOperand (operator : Option Token) (span : Span) : Failure :=
  match operator with
  | some t => ⟨.missingOperand t.lexeme, t.span⟩
  | none => ⟨.malformed none, span⟩

/-- Checks that no parenthesis is closed without being open, and that at most `limit` are open at
any time when `depth` are open at the start. -/
def balance (limit depth : Nat) : List Token → Except Failure Unit
  | [] => .ok ()
  | t :: ts =>
    match t.kind with
    | .symbol .openParen =>
      if limit < depth + 1 then
        .error ⟨.malformed (some ("nesting deeper than " ++ limit.repr)), t.span⟩
      else balance limit (depth + 1) ts
    | .symbol .closeParen =>
      match depth with
      | 0 => .error (unbalanced t.span)
      | depth + 1 => balance limit depth ts
    | _ => balance limit depth ts

/-- The parenthesis that closes the one at `opening`. At the end of the input the fault is that of
the opening one. -/
def close (opening : Span) : (ts : List Token) → Except Failure (Shorter ts)
  | [] => .error (unbalanced opening)
  | t :: rest =>
    if t.is .closeParen then .ok (.tail t rest) else .error (unbalanced t.span)

/-- The input ends where an operand has to be: the fault of a dangling operator, else of the
innermost open parenthesis. -/
def endOfInput (finish : Nat) (opened : List Span) (operator : Option Token) : Failure :=
  match operator, opened with
  | none, opening :: _ => unbalanced opening
  | _, _ => noOperand operator (Span.point finish)

mutual

/-- An `Expr`. The spans of the open parentheses are given, innermost first, and the offset at which
the input ends. -/
def expr (finish : Nat) (opened : List Span) (ts : List Token) : Except Failure (Shorter ts) := do
  let ⟨rest, h⟩ ← term finish opened none ts
  return Shorter.transLe ⟨rest, h⟩ (← operands finish opened rest)
termination_by (ts.length, 3)

def operands (finish : Nat) (opened : List Span) (ts : List Token) :
    Except Failure (NoLonger ts) :=
  match ts with
  | [] => .ok (.refl [])
  | t :: rest =>
    if (BinaryOp.ofKind? t.kind).isSome then do
      let ⟨rest, h⟩ ← term finish opened (some t) rest
      let left := Shorter.transLe ⟨rest, h⟩ (← operands finish opened rest)
      return (Shorter.cons t left).toNoLonger
    else .ok (.refl (t :: rest))
termination_by (ts.length, 0)

/-- A `Term`, as the right operand of an operator, if there is one. -/
def term (finish : Nat) (opened : List Span) (operator : Option Token) (ts : List Token) :
    Except Failure (Shorter ts) :=
  match ts with
  | [] => atom finish opened operator []
  | t :: rest =>
    if t.isSign then do
      return Shorter.cons t (← atom finish opened (some t) rest)
    else atom finish opened operator (t :: rest)
termination_by (ts.length, 2)

def atom (finish : Nat) (opened : List Span) (operator : Option Token) (ts : List Token) :
    Except Failure (Shorter ts) :=
  match ts with
  | [] => .error (endOfInput finish opened operator)
  | t :: rest =>
    match t.kind with
    | .number _ => .ok (.tail t rest)
    | .identifier _ =>
      match rest with
      | dot :: rest' =>
        if t.isMath && dot.is .dot then do
          return Shorter.cons t (Shorter.cons dot (← call finish opened rest'))
        else .ok (.tail t (dot :: rest'))
      | [] => .ok (.tail t [])
    | .symbol .openParen => do
      let ⟨rest, h⟩ ← expr finish (t.span :: opened) rest
      return Shorter.cons t (Shorter.trans ⟨rest, h⟩ (← close t.span rest))
    | .symbol .closeParen | .symbol .comma =>
      if operator.isSome then .error (noOperand operator t.span) else .error (unexpected t)
    | _ => .error (unexpected t)
termination_by (ts.length, 1)

def call (finish : Nat) (opened : List Span) (ts : List Token) : Except Failure (Shorter ts) :=
  match ts with
  | [] => .error ⟨.malformed none, Span.point finish⟩
  | name :: rest =>
    match name.kind with
    | .identifier _ =>
      match rest with
      | [] => .ok (.tail name [])
      | opening :: rest' =>
        if opening.is .openParen then
          match rest' with
          | [] => .error (unbalanced opening.span)
          | t :: rest'' =>
            if t.is .closeParen then .ok (.cons name (.cons opening (.tail t rest'')))
            else do
              let left ← arguments finish (opening.span :: opened) opening.span (t :: rest'')
              return Shorter.cons name (Shorter.cons opening left)
        else .ok (.tail name (opening :: rest'))
    | _ => .error (unexpected name)
termination_by (ts.length, 0)

/-- The arguments behind the parenthesis at `opening`: `Expr (',' Expr)* ')'`. -/
def arguments (finish : Nat) (opened : List Span) (opening : Span) (ts : List Token) :
    Except Failure (Shorter ts) := do
  let ⟨rest, h⟩ ← expr finish opened ts
  match rest, h with
  | [], _ => .error (unbalanced opening)
  | t :: rest', h =>
    let left : Shorter ts := ⟨t :: rest', h⟩
    if t.is .comma then do
      have _ : rest'.length < ts.length := Shorter.lt_of_cons h
      return left.trans (Shorter.cons t (← arguments finish opened opening rest'))
    else do
      return left.trans (← close opening (t :: rest'))
termination_by (ts.length, 4)

end

def sentence (ts : List Token) : Except Failure Unit := do
  let ⟨rest, _⟩ ← expr (Token.finish ts) [] ts
  match rest with
  | [] => return
  | t :: rest =>
    let last := (t :: rest).getLast (List.cons_ne_nil _ _)
    .error ⟨.trailing (Token.joinLexemes (t :: rest)), t.span.merge last.span⟩

end Recognizer

end Reckon
