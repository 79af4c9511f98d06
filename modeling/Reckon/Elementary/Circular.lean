import Reckon.Elementary.Series

/-! The circular functions and their inverses, correctly rounded. -/
namespace Reckon.Elementary

open Binary64 (infinity nan isNegative withSign)

/-- The quadrant of a positive finite angle and what is left of it, cut to `p` bits. The angle is
divided by a right angle that is known to as many bits more as the angle has before its point. -/
def reduce (p : Nat) (x : Float) : Nat × Nat :=
  let extra := (Binary64.exponent x + 64).toNat
  let w := p + extra
  let a := (fixed w x).toNat
  let right := pi w / 2
  (a / right % 4, a % right / 2 ^ extra)

def sinCos (p : Nat) (x : Float) : Int × Int :=
  let (quadrant, r) := reduce p x
  let (s, c) := sinCosFraction p r
  match quadrant with
  | 0 => (s, c)
  | 1 => (c, -s)
  | 2 => (-s, -c)
  | _ => (-c, s)

def sin (x : Float) : Float :=
  if x.isNaN || x.isInf then nan
  else if x == 0 then x
  else
    let y := correctlyRounded fun p => .around (sinCos p (Binary64.abs x)).1 slack (-p)
    if isNegative x then -y else y

def cos (x : Float) : Float :=
  if x.isNaN || x.isInf then nan
  else correctlyRounded fun p => .around (sinCos p (Binary64.abs x)).2 slack (-p)

def quotientEnclosure (p : Nat) (a b : Int) : Enclosure :=
  let (a, b) := if b < 0 then (-a, -b) else (a, b)
  if b ≤ slack then ⟨-1, 1, 0⟩
  else
    let ends := [((a - slack) * 2 ^ p) / (b - slack), ((a - slack) * 2 ^ p) / (b + slack),
      ((a + slack) * 2 ^ p) / (b - slack), ((a + slack) * 2 ^ p) / (b + slack)]
    ⟨ends.foldl min (ends.headD 0) - 1, ends.foldl max (ends.headD 0) + 1, -p⟩

def tan (x : Float) : Float :=
  if x.isNaN || x.isInf then nan
  else if x == 0 then x
  else
    let y := correctlyRounded fun p =>
      let (s, c) := sinCos p (Binary64.abs x)
      quotientEnclosure p s c
    if isNegative x then -y else y

def atan (x : Float) : Float :=
  if x.isNaN || x == 0 then x
  else if x.isInf then
    withSign (isNegative x) (correctlyRounded fun p => .around (pi p) slack (-p - 1))
  else withSign (isNegative x) (correctlyRounded fun p =>
    let e := Binary64.exponent x
    .around (angle p (Binary64.mantissa x * 2 ^ e.toNat) (2 ^ (-e).toNat)) slack (-p))

def units (x : Float) : Nat := Binary64.mantissa x * 2 ^ (Binary64.exponent x + 1074).toNat

/-- The angle of a point with finite coordinates that are not both zero, without the sign of `y`. -/
def pointAngle (y x : Float) : Float :=
  if y == 0 && !isNegative x then 0
  else correctlyRounded fun p =>
    let a : Int := angle p (units y) (units x)
    .around (if isNegative x then pi p - a else a) slack (-p)

/-- The angle of the point `(x, y)`, from `-π` to `π`. An infinite coordinate outweighs a finite one
and two of them are equal; a zero is taken with its sign. -/
def atan2 (y x : Float) : Float :=
  if y.isNaN || x.isNaN then nan
  else
    let one (z : Float) : Float := withSign (isNegative z) 1
    let (y', x') :=
      if y.isInf && x.isInf then (one y, one x)
      else if y.isInf then (one y, withSign (isNegative x) 0)
      else if x.isInf then (withSign (isNegative y) 0, one x)
      else if y == 0 && x == 0 then (y, one x)
      else (y, x)
    withSign (isNegative y) (pointAngle y' x')

/-- The other side of a unit triangle, `sqrt (1 - x²)`, for a fraction in fixed point. -/
def coside (p a : Nat) : Nat := floorSqrt (2 ^ (2 * p) - a * a)

def asin (x : Float) : Float :=
  if x.isNaN || x == 0 then x
  else
    let y := Binary64.abs x
    if y > 1 then nan
    else withSign (isNegative x) (correctlyRounded fun p =>
      let w := 2 * p
      let a := (fixed w y).toNat
      .around (angle p a (coside w a)) slack (-p))

def acos (x : Float) : Float :=
  if x.isNaN then nan
  else
    let y := Binary64.abs x
    if y > 1 then nan
    else if x == 1 then 0
    else correctlyRounded fun p =>
      let w := 2 * p
      let a := (fixed w y).toNat
      let b : Int := angle p (coside w a) a
      .around (if isNegative x then pi p - b else b) slack (-p)

end Reckon.Elementary
