import Reckon.Elementary.Series

/-! Logarithms and the inverse hyperbolic functions, correctly rounded. -/
namespace Reckon.Elementary

open Binary64 (infinity nan isNegative withSign)

def quotient (x : Float) : Nat × Nat :=
  let e := Binary64.exponent x
  (Binary64.mantissa x * 2 ^ e.toNat, 2 ^ (-e).toNat)

/-- A logarithm with its special values, given its enclosures for positive finite numbers. -/
def logWith (enclose : Nat → Nat → Nat → Enclosure) (x : Float) : Float :=
  if x.isNaN then nan
  else if x == 0 then -infinity
  else if x < 0 then nan
  else if x.isInf then infinity
  else
    let (n, d) := quotient x
    if n = d then 0 else correctlyRounded fun p => enclose p n d

def log : Float → Float := logWith fun p n d => .around (logQuotient p n d) slack (-p)

def logBase (base : Nat) : Float → Float :=
  logWith fun p n d =>
    .around (logQuotient p n d * 2 ^ p / logQuotient p base 1) (slack * slack) (-p)

def log2 : Float → Float := logBase 2

def log10 : Float → Float := logBase 10

/-- The logarithm `log (1 + x)`, also where `x` is close to zero. -/
def log1p (x : Float) : Float :=
  if x.isNaN || x == 0 then x
  else if x == -1 then -infinity
  else if x < -1 then nan
  else if x.isInf then infinity
  else correctlyRounded fun p =>
    let e := Binary64.exponent x
    let d : Nat := 2 ^ (-e).toNat
    let n := (Binary64.numerator x * 2 ^ e.toNat + d).toNat
    .around (logQuotient p n d) slack (-p)

/-- The logarithm `log (x + sqrt (x² + offset))` for `x` in fixed point, with the square root to
twice the precision. -/
def logRoot (p : Nat) (x : Float) (offset : Int) : Enclosure :=
  let a := fixed (2 * p) x
  let root := floorSqrt (a * a + offset * 2 ^ (4 * p)).toNat
  .around (logQuotient p (a.toNat + root) (2 ^ (2 * p))) slack (-p)

def asinh (x : Float) : Float :=
  if x.isNaN || x == 0 || x.isInf then x
  else withSign (isNegative x) (correctlyRounded fun p => logRoot p (Binary64.abs x) 1)

def acosh (x : Float) : Float :=
  if x.isNaN || x < 1 then nan
  else if x == 1 then 0
  else if x.isInf then x
  else correctlyRounded fun p => logRoot p x (-1)

def atanh (x : Float) : Float :=
  if x.isNaN || x == 0 then x
  else
    let y := Binary64.abs x
    if y == 1 then withSign (isNegative x) infinity
    else if y > 1 then nan
    else withSign (isNegative x) (correctlyRounded fun p =>
      let (n, d) := quotient y
      .around (logQuotient p (d + n) (d - n)) slack (-p - 1))

end Reckon.Elementary
