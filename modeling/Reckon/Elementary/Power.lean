import Reckon.Elementary.Series

/-! Powers and roots, correctly rounded. -/
namespace Reckon.Elementary

open Binary64 (infinity nan isNegative withSign)

/-- The cube root. The mantissa gets at least 195 more bits, of which the root keeps 65; a last bit
says whether the root was cut off. -/
def cbrt (x : Float) : Float :=
  if x.isNaN || x == 0 || x.isInf then x
  else
    let e := Binary64.exponent x
    let third := (e - 195) / 3
    let n := Binary64.mantissa x * 2 ^ (e - 3 * third).toNat
    let root := floorCbrt n
    let sticky := if root ^ 3 = n then 2 * root else 2 * root + 1
    Binary64.nearestScaled (isNegative x) sticky (third - 1)

def hypotenuse (x y : Float) : Float :=
  let e := min (Binary64.exponent x) (Binary64.exponent y)
  let side (z : Float) : Nat := Binary64.mantissa z * 2 ^ (Binary64.exponent z - e).toNat
  -- 64 more bits of the root, and one that says whether it was cut off
  let n := (side x ^ 2 + side y ^ 2) * 2 ^ 128
  let root := floorSqrt n
  let sticky := if root ^ 2 = n then 2 * root else 2 * root + 1
  Binary64.nearestScaled false sticky (e - 65)

def hypot2 (x y : Float) : Float :=
  if x.isInf || y.isInf then infinity
  else if x.isNaN || y.isNaN then nan
  else hypotenuse x y

/-- The length of a vector: infinite if a component is, whatever the others are. -/
def hypot (xs : List Float) : Float :=
  if xs.any Float.isInf then infinity else xs.foldl hypot2 0

def isWhole (x : Float) : Bool :=
  0 ≤ Binary64.exponent x || Binary64.mantissa x % 2 ^ (-Binary64.exponent x).toNat == 0

def isOdd (x : Float) : Bool :=
  let e := Binary64.exponent x
  if 0 < e then false
  else isWhole x && Binary64.mantissa x / 2 ^ (-e).toNat % 2 == 1

/-- The product `log x · y` of a positive finite `x` and a finite `y`, with as many bits more as `y`
has before its point. -/
def logProduct (p : Nat) (x y : Float) : Int :=
  let extra := (Binary64.exponent y + 56).toNat
  let w := p + extra
  let e := Binary64.exponent x
  let l := logQuotient w (Binary64.mantissa x * 2 ^ e.toNat) (2 ^ (-e).toNat)
  toFixed p (l * Binary64.numerator y) (Binary64.exponent y - w)

def powPositive (x y : Float) : Float :=
  let size := logProduct 64 x y
  if size > 750 * 2 ^ 64 then infinity
  else if size < -750 * 2 ^ 64 then 0
  else correctlyRounded fun p =>
    let (m, k) := expScaled p (logProduct p x y)
    .around m slack (k - p)

def powLimit (infinite : Bool) (y : Float) : Float :=
  if infinite == isNegative y then 0 else infinity

/-- Powers. A NaN exponent gives NaN, and so does an infinite power of a number of magnitude one. A
negative base has powers with whole exponents only, and an odd one keeps its sign. -/
def pow (x y : Float) : Float :=
  let size := Binary64.abs x
  if y.isNaN || (size == 1 && y.isInf) then nan
  else if y == 0 then 1
  else if x.isNaN then nan
  else if y.isInf then powLimit (size > 1) y
  else
    let sign := isNegative x && isOdd y
    if x == 0 || x.isInf then withSign sign (powLimit x.isInf y)
    else if isNegative x && !isWhole y then nan
    else withSign sign (if size == 1 then 1 else powPositive size y)

end Reckon.Elementary
