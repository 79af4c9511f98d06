import Reckon.Proofs.Tree
import Reckon.Proofs.Spacing

/-! Formulas as a writer has them in mind, without positions and without parentheses, and the words
by which they are written. Parentheses stand just where the precedence of the operators needs
them. -/
namespace Reckon

def BinaryOp.symbol : BinaryOp → Symbol
  | .add => .plus
  | .sub => .minus
  | .mul => .star
  | .div => .slash
  | .rem => .percent

inductive Formula where
  | number (n : Literal)
  | var (x : Identifier) (h : x.text ≠ "Math")
  /-- A member of `Math` used bare. -/
  | constant (x : Identifier)
  /-- A member of `Math` that is called. -/
  | call (x : Identifier) (args : List Formula)
  | signed (negative : Bool) (operand : Formula)
  | binary (op : BinaryOp) (left right : Formula)

namespace Formula

mutual

/-- The value of a formula, from left to right up to the first failure. -/
def value (b : Bindings) : Formula → Except Cause Float
  | .number n => .ok n.value
  | .var x _ => Resolution.variableNamed b x.text
  | .constant x => Resolution.constantNamed x.text
  | .call x args => do
    let f ← Resolution.functionNamed x.text
    return f.apply (← values b args)
  | .signed negative e => do
    let x ← e.value b
    return if negative then -x else x
  | .binary op l r => do
    let x ← l.value b
    let y ← r.value b
    return op.arithmetic x y

def values (b : Bindings) : List Formula → Except Cause (List Float)
  | [] => .ok []
  | e :: es => do
    let x ← e.value b
    return x :: (← values b es)

end

/-- How tightly the outermost part of a formula binds: a sign more than every operator. -/
def binding : Formula → Nat
  | .binary op _ _ => op.precedence
  | .signed _ _ => 2
  | _ => 3

end Formula

namespace Word

def sign (negative : Bool) : Word := .symbol (if negative then .minus else .plus)

def enclose (ws : List Word) : List Word := .symbol .openParen :: (ws ++ [.symbol .closeParen])

def encloseIf (needed : Bool) (ws : List Word) : List Word := if needed then enclose ws else ws

def member (x : Identifier) : List Word := [.name .math, .symbol .dot, .name x]

end Word

namespace Formula
open Word

mutual

/-- The words by which a formula is written. An operand of a sign is in parentheses if it has an
operator or a sign itself; a left operand of an operator if it binds less than the operator, a right
one if it binds no more. -/
def words : Formula → List Word
  | .number n => [.numeral n]
  | .var x _ => [.name x]
  | .constant x => member x
  | .call x args => member x ++ enclose (argumentWords args)
  | .signed negative e => sign negative :: encloseIf (e.binding < 3) e.words
  | .binary op l r => encloseIf (l.binding < op.precedence) l.words ++
      .symbol op.symbol :: encloseIf (r.binding ≤ op.precedence) r.words

def argumentWords : List Formula → List Word
  | [] => []
  | [e] => e.words
  | e :: es => e.words ++ .symbol .comma :: argumentWords es

end

end Formula

end Reckon
