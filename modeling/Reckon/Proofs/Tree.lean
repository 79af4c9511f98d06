import Reckon.Proofs.Grammar
import Reckon.Interpreter

/-! Syntax trees with the precedence of the operators in their shape, and the stratified grammar by
which tokens spell them:

    Sum  := Prod (('+' | '-') Prod)*
    Prod := Term (('*' | '/' | '%') Term)*
    Term := ['+' | '-'] Atom

Chains of operators are folded to the left. -/
namespace Reckon
open Token

/-- What the writer of an operator means by it. -/
def BinaryOp.arithmetic : BinaryOp → Float → Float → Float
  | .add, x, y => x + y
  | .sub, x, y => x - y
  | .mul, x, y => x * y
  | .div, x, y => x / y
  | .rem, x, y => Binary64.remainder x y

theorem BinaryOp.apply_eq_arithmetic (op : BinaryOp) : op.apply = op.arithmetic := by
  funext x y
  cases op <;> rfl

inductive Tree where
  | number (value : Float)
  | var (name : Token)
  /-- A member of `Math` used bare. -/
  | constant (name : Token)
  /-- A member of `Math` that is called. -/
  | call (name : Token) (args : List Tree)
  | group (inner : Tree)
  | signed (negative : Bool) (operand : Tree)
  | binary (op : BinaryOp) (left right : Tree)

namespace Tree

mutual

/-- The value of a tree, from left to right up to the first failure. -/
def value (b : Bindings) : Tree → Except Failure Float
  | .number x => .ok x
  | .var name => Resolution.variableValue b name
  | .constant name => Resolution.constantValue name
  | .call name args => do
    let f ← Resolution.callee name
    return f.apply (← values b args)
  | .group e => e.value b
  | .signed negative e => do
    let x ← e.value b
    return if negative then -x else x
  | .binary op l r => do
    let x ← l.value b
    let y ← r.value b
    return op.arithmetic x y

def values (b : Bindings) : List Tree → Except Failure (List Float)
  | [] => .ok []
  | e :: es => do
    let x ← e.value b
    return x :: (← values b es)

end

end Tree

/-- The operators of one precedence bind a chain of operands. -/
inductive Level where
  | sum
  | product
deriving DecidableEq, Repr

namespace Level

def operators : Level → List (Symbol × BinaryOp)
  | .sum => [(.plus, .add), (.minus, .sub)]
  | .product => [(.star, .mul), (.slash, .div), (.percent, .rem)]

def precedence : Level → Nat
  | .sum => 0
  | .product => 1

theorem mem_operators_iff {l : Level} {s : Symbol} {op : BinaryOp} :
    (s, op) ∈ l.operators ↔ BinaryOp.ofSymbol? s = some op ∧ op.precedence = l.precedence := by
  cases l <;> cases s <;> cases op <;> decide

theorem operators_inj {l : Level} {s : Symbol} {op op' : BinaryOp} (h : (s, op) ∈ l.operators)
    (h' : (s, op') ∈ l.operators) : op = op' :=
  Option.some.inj ((mem_operators_iff.mp h).1.symm.trans (mem_operators_iff.mp h').1)

theorem exists_mem_operators {s : Symbol} (h : s ∈ Grammar.binaryOperators) :
    ∃ op, (s, op) ∈ operators .sum ∨ (s, op) ∈ operators .product := by
  revert h
  cases s <;> simp [Grammar.binaryOperators, operators]

end Level

inductive Phrase where
  /-- `Sum` or `Prod`. -/
  | chain (l : Level) (e : Tree)
  /-- The operators and operands behind a left operand, which they make into `e`. -/
  | operands (l : Level) (left e : Tree)
  | term (e : Tree)
  | atom (e : Tree)
  /-- What stands behind `Math` and its dot. -/
  | member (e : Tree)
  | arguments (es : List Tree)

/-- An operand of a sum is a product, and one of a product is a term. -/
def Level.operand : Level → Tree → Phrase
  | .sum, e => .chain .product e
  | .product, e => .term e

namespace Phrase

def signs : List (Symbol × Bool) := [(.plus, false), (.minus, true)]

/-- The tokens by which a phrase is spelled. -/
inductive Spells : Phrase → List Token → Prop where
  | chain {l a e ks ls} : Spells (l.operand a) ks → Spells (.operands l a e) ls →
      Spells (.chain l e) (ks ++ ls)
  | noOperand {l e} : Spells (.operands l e e) []
  | operand {l t s op left a e ks ls} : (s, op) ∈ l.operators → t.kind = .symbol s →
      Spells (l.operand a) ks → Spells (.operands l (.binary op left a) e) ls →
      Spells (.operands l left e) (t :: (ks ++ ls))
  | unsigned {e ks} : Spells (.atom e) ks → Spells (.term e) ks
  | signed {t s negative e ks} : (s, negative) ∈ signs → t.kind = .symbol s →
      Spells (.atom e) ks → Spells (.term (.signed negative e)) (t :: ks)
  | number {t x} : t.kind = .number x → Spells (.atom (.number x)) [t]
  | var {t name} : t.kind = .identifier name → Spells (.atom (.var t)) [t]
  | group {opening e ks close} : opening.kind = .symbol .openParen → Spells (.chain .sum e) ks →
      close.kind = .symbol .closeParen → Spells (.atom (.group e)) (opening :: (ks ++ [close]))
  | member {t dot e ks} : t.kind = .identifier "Math" → dot.kind = .symbol .dot →
      Spells (.member e) ks → Spells (.atom e) (t :: dot :: ks)
  | constant {t name} : t.kind = .identifier name → Spells (.member (.constant t)) [t]
  | noArgument {t name opening close} : t.kind = .identifier name →
      opening.kind = .symbol .openParen → close.kind = .symbol .closeParen →
      Spells (.member (.call t [])) [t, opening, close]
  | call {t name opening es ks close} : t.kind = .identifier name →
      opening.kind = .symbol .openParen → Spells (.arguments es) ks →
      close.kind = .symbol .closeParen →
      Spells (.member (.call t es)) (t :: opening :: (ks ++ [close]))
  | argument {e ks} : Spells (.chain .sum e) ks → Spells (.arguments [e]) ks
  | moreArguments {e ks comma es ls} : Spells (.chain .sum e) ks → comma.kind = .symbol .comma →
      Spells (.arguments es) ls → Spells (.arguments (e :: es)) (ks ++ comma :: ls)

end Phrase

end Reckon
