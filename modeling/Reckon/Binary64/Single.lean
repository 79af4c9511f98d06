import Reckon.Binary64.Rounding

/-! Doubles rounded to the precision and range of 32-bit floating-point numbers. -/
namespace Reckon.Binary64

/-- The nearest number with 24 significant bits and an exponent of at least -149, ties to even. -/
def toSingle (x : Float) : Float :=
  if !x.isFinite || mantissa x = 0 then x
  else
    let e := max ((mantissa x).log2 + exponent x - 23) (-149)
    let m := roundScaled (mantissa x) 1 (e - exponent x)
    if 2 ^ 24 * 2 ^ (104 : Nat) ≤ m * 2 ^ e.toNat then withSign (isNegative x) infinity
    else nearestScaled (isNegative x) m e

end Reckon.Binary64
