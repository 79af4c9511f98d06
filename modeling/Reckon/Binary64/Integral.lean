import Reckon.Binary64.Rounding

/-! Doubles with an integer value near a double. The sign bit of the argument is kept, so that
a negative number above `-1` is brought up to `-0`. -/
namespace Reckon.Binary64

/-- Whole part of the mantissa at an exponent below zero, and whether something was cut off. -/
def wholePart (x : Float) : Nat × Bool :=
  let weight := 2 ^ (-exponent x).toNat
  (mantissa x / weight, mantissa x % weight != 0)

/-- An integral neighbour; `away` says whether a cut-off magnitude goes up to the next integer. -/
def integral (away : Bool) (x : Float) : Float :=
  if 0 ≤ exponent x then x
  else
    let (whole, cut) := wholePart x
    withSign (isNegative x) (ofNat (if cut && away then whole + 1 else whole))

def truncate (x : Float) : Float := integral false x

def floor (x : Float) : Float := integral (isNegative x) x

def ceiling (x : Float) : Float := integral (!isNegative x) x

/-- The nearest integer, a half going up; a zero keeps the sign of the argument. -/
def roundHalfUp (x : Float) : Float :=
  if !x.isFinite || x == 0 then x
  else
    let lower := floor x
    let rounded := if x - lower ≥ 0.5 then lower + 1 else lower
    if rounded == 0 && x < 0 then -0.0 else rounded

def signOf (x : Float) : Float :=
  if x.isNaN || x == 0 then x else withSign (isNegative x) 1

end Reckon.Binary64
