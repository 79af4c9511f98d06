/-! Sets of code points given as ascending ranges, in pages so that a look-up reads few of them. -/
namespace Reckon.Text

/-- Entries that concern the code points from `first` to `last`. -/
structure Page where
  first : Nat
  last : Nat
  entries : List Nat

/-- The entries of the page that a code point falls into. -/
def Page.entriesFor (pages : List Page) (code : Nat) : List Nat :=
  match pages.find? (fun p => p.first ≤ code && code ≤ p.last) with
  | some p => p.entries
  | none => []

/-- An entry that writes a range as its first and last code point, six hexadecimal digits each. -/
def inRange (code entry : Nat) : Bool := entry / 0x1000000 ≤ code && code ≤ entry % 0x1000000

def Page.covers (pages : List Page) (code : Nat) : Bool :=
  (entriesFor pages code).any (inRange code)

end Reckon.Text
