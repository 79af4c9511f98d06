import Reckon.Expression
import Reckon.Resolution

/-! Evaluation of expressions by precedence climbing. Names are resolved in the order in which they
are reached, and the first failure ends the evaluation. Tokens out of place are reported too, though
an expression has none. -/
namespace Reckon.Interpreter

def close (finish : Nat) : (ts : List Token) → Except Failure (Shorter ts)
  | [] => .error (Recognizer.unbalanced (Span.point finish))
  | t :: rest =>
    if t.is .closeParen then .ok (.tail t rest)
    else .error (Recognizer.unbalanced t.span)

def endOfInput (finish : Nat) : Failure := ⟨.malformed none, Span.point finish⟩

mutual

/-- A term and all operators behind it that bind at least as tightly as `min`. -/
def climb (b : Bindings) (finish min : Nat) (ts : List Token) :
    Except Failure (Float × Shorter ts) := do
  let (lhs, ⟨rest, h⟩) ← term b finish ts
  let (value, left) ← climbFrom b finish min lhs rest
  return (value, Shorter.transLe ⟨rest, h⟩ left)
termination_by (ts.length, 4)

/-- The operators behind a left operand. A right operand takes only tighter ones, so that operators
of one precedence associate to the left. -/
def climbFrom (b : Bindings) (finish min : Nat) (lhs : Float) (ts : List Token) :
    Except Failure (Float × NoLonger ts) :=
  match ts with
  | [] => .ok (lhs, .refl [])
  | t :: rest =>
    match BinaryOp.ofKind? t.kind with
    | none => .ok (lhs, .refl (t :: rest))
    | some op =>
      if op.precedence < min then .ok (lhs, .refl (t :: rest))
      else do
        let (rhs, ⟨rest, h⟩) ← climb b finish (op.precedence + 1) rest
        let (value, left) ← climbFrom b finish min (op.apply lhs rhs) rest
        return (value, (Shorter.cons t (Shorter.transLe ⟨rest, h⟩ left)).toNoLonger)
termination_by (ts.length, 0)

def term (b : Bindings) (finish : Nat) (ts : List Token) :
    Except Failure (Float × Shorter ts) :=
  match ts with
  | [] => atom b finish []
  | t :: rest =>
    if t.is .minus then do
      let (value, left) ← atom b finish rest
      return (-value, .cons t left)
    else if t.is .plus then do
      let (value, left) ← atom b finish rest
      return (value, .cons t left)
    else atom b finish (t :: rest)
termination_by (ts.length, 3)

def atom (b : Bindings) (finish : Nat) (ts : List Token) :
    Except Failure (Float × Shorter ts) :=
  match ts with
  | [] => .error (endOfInput finish)
  | t :: rest =>
    match t.kind with
    | .number value => .ok (value, .tail t rest)
    | .identifier _ =>
      match rest with
      | dot :: rest' =>
        if t.isMath && dot.is .dot then do
          let (value, left) ← member b finish rest'
          return (value, .cons t (.cons dot left))
        else do return (← Resolution.variableValue b t, .tail t (dot :: rest'))
      | [] => do return (← Resolution.variableValue b t, .tail t [])
    | .symbol .openParen => do
      let (value, ⟨rest, h⟩) ← climb b finish 0 rest
      return (value, .cons t (Shorter.trans ⟨rest, h⟩ (← close finish rest)))
    | .symbol _ => .error (Recognizer.unexpected t)
termination_by (ts.length, 2)

/-- A member of `Math`, behind the dot. The target of a call is resolved before its arguments. -/
def member (b : Bindings) (finish : Nat) (ts : List Token) :
    Except Failure (Float × Shorter ts) :=
  match ts with
  | [] => .error (endOfInput finish)
  | name :: rest =>
    match rest with
    | opening :: rest' =>
      if opening.is .openParen then do
        let f ← Resolution.callee name
        let (args, left) ← arguments b finish rest'
        return (f.apply args, .cons name (.cons opening left))
      else do return (← Resolution.constantValue name, .tail name (opening :: rest'))
    | [] => do return (← Resolution.constantValue name, .tail name [])
termination_by (ts.length, 0)

def arguments (b : Bindings) (finish : Nat) (ts : List Token) :
    Except Failure (List Float × Shorter ts) :=
  match ts with
  | [] => argumentsFrom b finish []
  | t :: rest =>
    if t.is .closeParen then .ok ([], .tail t rest)
    else argumentsFrom b finish (t :: rest)
termination_by (ts.length, 6)

def argumentsFrom (b : Bindings) (finish : Nat) (ts : List Token) :
    Except Failure (List Float × Shorter ts) := do
  let (value, ⟨rest, h⟩) ← climb b finish 0 ts
  match rest, h with
  | [], _ => .error (Recognizer.unbalanced (Span.point finish))
  | t :: rest', h =>
    let left : Shorter ts := ⟨t :: rest', h⟩
    if t.is .comma then do
      have _ : rest'.length < ts.length := Shorter.lt_of_cons h
      let (values, last) ← argumentsFrom b finish rest'
      return (value :: values, left.trans (.cons t last))
    else do
      return ([value], left.trans (← close finish (t :: rest')))
termination_by (ts.length, 5)

end

def run (b : Bindings) (ts : List Token) : Except Failure Float := do
  let (value, ⟨rest, _⟩) ← climb b (Token.finish ts) 0 ts
  match rest with
  | [] => return value
  | t :: _ => .error (Recognizer.unexpected t)

end Reckon.Interpreter

namespace Reckon.Expression

/-- The value of an expression, in which NaN and the infinities are values like any other. -/
def value (e : Expression) (b : Bindings) : Except Failure Float := Interpreter.run b e.tokens

end Reckon.Expression
