import Reckon.Binary64.Rounding

/-! Decimal numerals: digits with an optional point, then an optional exponent. Reading one as a
double rounds its exact value once. -/
namespace Reckon.Decimal

def isDigit (c : Char) : Bool := '0' ≤ c && c ≤ '9'

def digitValue (c : Char) : Nat := c.toNat - '0'.toNat

def digitsValue (ds : List Char) : Nat := ds.foldl (fun n d => 10 * n + digitValue d) 0

/-- The parts of a numeral: its digits before and after the point, and its power of ten. -/
structure Numeral where
  whole : List Char
  fraction : List Char
  exponent : Int
deriving DecidableEq, Repr

namespace Numeral

/-- Beyond this power of ten either way a double is infinite or zero. -/
def reach : Nat := 400

/-- The nearest double, with the given sign. A power of ten out of reach is never computed. -/
def toFloat (negative : Bool) (n : Numeral) : Float :=
  let coefficient := digitsValue (n.whole ++ n.fraction)
  let scale := n.exponent - n.fraction.length
  if coefficient = 0 then Binary64.nearest negative 0 1
  else if reach < scale then Binary64.withSign negative Binary64.infinity
  else if n.whole.length + n.exponent < -reach then Binary64.nearest negative 0 1
  else if 0 ≤ scale then Binary64.nearest negative (coefficient * 10 ^ scale.toNat) 1
  else Binary64.nearest negative coefficient (10 ^ (-scale).toNat)

end Numeral

def splitSign : List Char → Bool × List Char
  | '-' :: cs => (true, cs)
  | '+' :: cs => (false, cs)
  | cs => (false, cs)

/-- A signed run of digits and nothing more. -/
def exponentValue? (cs : List Char) : Option Int :=
  let (negative, ds) := splitSign cs
  if ds ≠ [] ∧ ds.all isDigit then
    some (if negative then -(digitsValue ds : Int) else digitsValue ds)
  else none

def splitFraction : List Char → List Char × List Char
  | '.' :: cs => (cs.takeWhile isDigit, cs.dropWhile isDigit)
  | cs => ([], cs)

/-- An unsigned numeral; it needs a digit before or after the point. -/
def Numeral.ofChars? (cs : List Char) : Option Numeral :=
  let whole := cs.takeWhile isDigit
  let (fraction, tail) := splitFraction (cs.dropWhile isDigit)
  if whole = [] ∧ fraction = [] then none
  else
    match tail with
    | [] => some ⟨whole, fraction, 0⟩
    | c :: ds =>
      if c = 'e' ∨ c = 'E' then (exponentValue? ds).map (⟨whole, fraction, ·⟩) else none

def signed? (cs : List Char) : Option Float :=
  let (negative, body) := splitSign cs
  (Numeral.ofChars? body).map (·.toFloat negative)

end Reckon.Decimal
