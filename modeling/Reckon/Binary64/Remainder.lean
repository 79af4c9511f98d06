import Reckon.Binary64.Rounding

/-! The remainder of a division whose quotient is cut towards zero. It is exact: both operands are
integers over one power of two, and the remainder of these integers is below the smaller one. -/
namespace Reckon.Binary64

/-- The mantissa as an integer multiple of `2 ^ e`, for an `e` not above the exponent. -/
def alignedMantissa (x : Float) (e : Int) : Nat := mantissa x <<< (exponent x - e).toNat

/-- The remainder has the sign of the dividend. -/
def remainder (x y : Float) : Float :=
  if x.isNaN || y.isNaN || x.isInf || y == 0 then nan
  else if y.isInf then x
  else
    let e := min (exponent x) (exponent y)
    nearestScaled (isNegative x) (alignedMantissa x e % alignedMantissa y e) e

end Reckon.Binary64
