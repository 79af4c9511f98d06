import Reckon.Elementary.Series

/-! The exponential and the hyperbolic functions, correctly rounded. -/
namespace Reckon.Elementary

open Binary64 (infinity nan isNegative withSign)

/-- Beyond this the exponential overflows, and its inverse underflows. -/
def expReach : Float := 750

def exp (x : Float) : Float :=
  if x.isNaN then nan
  else if x > expReach then infinity
  else if x < -expReach then 0
  else correctlyRounded fun p =>
    let (m, k) := expScaled p (fixed p x)
    .around m slack (k - p)

/-- The difference `exp x - 1`, also where the exponential is close to one. -/
def expm1 (x : Float) : Float :=
  if x.isNaN || x == 0 then x
  else if x > expReach then infinity
  else if x < -64 then -1
  else correctlyRounded fun p =>
    let (m, k) := expScaled p (fixed p x)
    -- one is `2 ^ p` units of `2 ^ -p`
    if 0 ≤ k then .around (m * 2 ^ k.toNat - 2 ^ p) (slack * 2 ^ k.toNat) (-p)
    else .around (m / 2 ^ (-k).toNat - 2 ^ p) slack (-p)

/-- The exponential of a magnitude and of its opposite, in units of a common power of two. -/
def expBoth (p : Nat) (x : Float) : Int × Int × Int :=
  let (m, k) := expScaled p (fixed p x)
  (m, 2 ^ (2 * p) / m / 2 ^ (2 * k).toNat, k - p)

def sinh (x : Float) : Float :=
  if x.isNaN || x == 0 then x
  else
    let y := Binary64.abs x
    if y > expReach then withSign (isNegative x) infinity
    else withSign (isNegative x) (correctlyRounded fun p =>
      let (up, down, e) := expBoth p y
      .around (up - down) slack (e - 1))

def cosh (x : Float) : Float :=
  if x.isNaN then x
  else
    let y := Binary64.abs x
    if y > expReach then infinity
    else correctlyRounded fun p =>
      let (up, down, e) := expBoth p y
      .around (up + down) slack (e - 1)

/-- Beyond 32 the hyperbolic tangent is nearest to one. -/
def tanh (x : Float) : Float :=
  if x.isNaN || x == 0 then x
  else
    let y := Binary64.abs x
    if y > 32 then withSign (isNegative x) 1
    else withSign (isNegative x) (correctlyRounded fun p =>
      let (up, down, _) := expBoth p y
      .around ((up - down) * 2 ^ p / (up + down)) slack (-p))

end Reckon.Elementary
