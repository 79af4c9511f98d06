import Reckon.Span
import Reckon.Decimal.Layout

/-! Lexemes of the expression language. -/
namespace Reckon

/-- Operators and punctuation. The doubled operators are symbols of their own, so that they never
read as two signs; no expression uses them. -/
inductive Symbol where
  | plus
  | minus
  | star
  | slash
  | percent
  | plusPlus
  | minusMinus
  | openParen
  | closeParen
  | dot
  | comma
deriving DecidableEq, Repr

namespace Symbol

def text : Symbol → String
  | .plus => "+"
  | .minus => "-"
  | .star => "*"
  | .slash => "/"
  | .percent => "%"
  | .plusPlus => "++"
  | .minusMinus => "--"
  | .openParen => "("
  | .closeParen => ")"
  | .dot => "."
  | .comma => ","

def isSign : Symbol → Bool
  | .plus | .minus => true
  | _ => false

end Symbol

inductive TokenKind where
  | number (value : Float)
  | identifier (name : String)
  | symbol (s : Symbol)
deriving DecidableEq

namespace TokenKind

/-- Numbers are compared as numbers: the zeros are one, and NaN differs from itself. -/
def sameAs : TokenKind → TokenKind → Bool
  | .number a, .number b => a == b
  | .identifier a, .identifier b => a == b
  | .symbol a, .symbol b => a == b
  | _, _ => false

def isSign : TokenKind → Bool
  | .symbol s => s.isSign
  | _ => false

/-- The identifier that opens the namespace of constants and functions. -/
def isMath : TokenKind → Bool
  | .identifier name => name == "Math"
  | _ => false

def text : TokenKind → String
  | .number value => Decimal.tokenText value
  | .identifier name => name
  | .symbol s => s.text

end TokenKind

structure Token where
  kind : TokenKind
  /-- The text as it stands in the source. -/
  lexeme : String
  span : Span
deriving DecidableEq

namespace Token

def is (t : Token) (s : Symbol) : Bool := t.kind == .symbol s

def isMath (t : Token) : Bool := t.kind.isMath

def isSign (t : Token) : Bool := t.kind.isSign

def finish (ts : List Token) : Nat :=
  match ts.getLast? with
  | some t => t.span.stop
  | none => 0

def joinLexemes (ts : List Token) : String := " ".intercalate (ts.map (·.lexeme))

end Token

end Reckon
