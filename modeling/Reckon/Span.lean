import Reckon.Text.Bytes

/-! Stretches of source text, as byte offsets with the end excluded. -/
namespace Reckon

structure Span where
  start : Nat
  stop : Nat
deriving DecidableEq, Repr

namespace Span

def point (offset : Nat) : Span := ⟨offset, offset⟩

/-- The least span that covers both. -/
def merge (a b : Span) : Span := ⟨min a.start b.start, max a.stop b.stop⟩

/-- Bytes covered; a reversed span covers none. -/
def length (s : Span) : Nat := s.stop - s.start

def isEmpty (s : Span) : Bool := s.length == 0

/-- The text covered; `none` when the span is reversed, leaves the text or splits a character. -/
def slice (s : Span) (text : List Char) : Option (List Char) :=
  if s.start ≤ s.stop then (Text.dropBytes s.start text).bind (Text.takeBytes s.length) else none

def render (s : Span) : String := s.start.repr ++ ".." ++ s.stop.repr

theorem slice_append (a b c : List Char) :
    slice ⟨Text.byteLength a, Text.byteLength a + Text.byteLength b⟩ (a ++ (b ++ c)) = some b := by
  simp [slice, length]

end Span

end Reckon
