import Reckon.Token

/-! A walk over a token sequence. Positions are 64-bit words. -/
namespace Reckon

structure Cursor where
  tokens : List Token
  position : Nat

namespace Cursor

def start (tokens : List Token) : Cursor := ⟨tokens, 0⟩

def peek? (c : Cursor) : Option Token := c.tokens[c.position]?

def peekKind? (c : Cursor) : Option TokenKind := c.peek?.map (·.kind)

/-- The token `n` places ahead. The place is counted in words, so that a count past the largest word
comes round to the front of the sequence. -/
def lookAhead? (c : Cursor) (n : UInt64) : Option Token :=
  c.tokens[(UInt64.ofNat c.position + n).toNat]?

def lookAheadKind? (c : Cursor) (n : UInt64) : Option TokenKind := (c.lookAhead? n).map (·.kind)

def advance (c : Cursor) : Option Token × Cursor :=
  match c.peek? with
  | some t => (some t, { c with position := c.position + 1 })
  | none => (none, c)

def atEnd (c : Cursor) : Bool := c.tokens.length ≤ c.position

def check (c : Cursor) (kind : TokenKind) : Bool :=
  match c.peek? with
  | some t => t.kind.sameAs kind
  | none => false

/-- Takes the current token if it is of the given kind, and says whether it was. -/
def eat (c : Cursor) (kind : TokenKind) : Bool × Cursor :=
  if c.check kind then (true, { c with position := c.position + 1 }) else (false, c)

def remaining (c : Cursor) : List Token := c.tokens.drop c.position

def endSpan (c : Cursor) : Span := Span.point (Token.finish c.tokens)

def currentSpan (c : Cursor) : Span :=
  match c.peek? with
  | some t => t.span
  | none => c.endSpan

theorem remaining_head? (c : Cursor) : c.remaining.head? = c.peek? := by
  simp [remaining, peek?, List.head?_drop]

end Cursor

end Reckon
