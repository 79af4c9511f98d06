import Reckon.Elementary.Enclosure

/-! Power series in fixed point: the integer `a` stands for `a / 2 ^ p`. Terms are cut off to whole
units, so that a sum is low by at most one unit for each of its terms; `slack` is more units than
any of the series has terms. -/
namespace Reckon.Elementary

/-- Units by which the functions of this module may be off. -/
def slack : Nat := 2 ^ 24

def floorSqrt (n : Nat) : Nat :=
  go (n.log2 + 2) (2 ^ (n.log2 / 2 + 1))
where
  /-- Newton's iteration from above, as far as `fuel` goes. -/
  go : Nat → Nat → Nat
    | 0, r => r
    | fuel + 1, r =>
      let next := (r + n / r) / 2
      if next < r then go fuel next else r

/-- The greatest integer whose cube is at most `n`, bit by bit from `2 ^ (bits - 1)`. -/
def floorCbrt (n : Nat) : Nat :=
  go (n.log2 / 3 + 1) 0
where
  go : Nat → Nat → Nat
    | 0, r => r
    | bit + 1, r =>
      let next := r + 2 ^ bit
      go bit (if next ^ 3 ≤ n then next else r)

/-- Terms `power / (2 k + 1)`, where `shrink` makes the next power; with alternating signs for the
arctangent. -/
def oddSeries (alternating : Bool) (shrink : Nat → Nat) : Nat → Nat → Nat → Int → Int
  | 0, _, _, sum => sum
  | fuel + 1, k, power, sum =>
    if power = 0 then sum
    else
      let term : Int := (power / (2 * k + 1) : Nat)
      oddSeries alternating shrink fuel (k + 1) (shrink power)
        (if alternating && k % 2 == 1 then sum - term else sum + term)

def inverseSeries (alternating : Bool) (p n : Nat) : Nat :=
  (oddSeries alternating (· / (n * n)) (p + 2) 0 (2 ^ p / n) 0).toNat

/-- The natural logarithm of two, as `2 artanh (1/3)`. -/
def ln2 (p : Nat) : Nat := 2 * inverseSeries false p 3

/-- Machin's formula. -/
def pi (p : Nat) : Nat := 16 * inverseSeries true p 5 - 4 * inverseSeries true p 239

def powerTerms (p r : Nat) : Nat → Nat → Nat → List Nat
  | 0, _, _ => []
  | fuel + 1, n, term =>
    if term = 0 then [] else term :: powerTerms p r fuel (n + 1) (term * r / 2 ^ p / (n + 1))

def expFraction (p r : Nat) : Nat := (powerTerms p r (p + 8) 0 (2 ^ p)).foldl (· + ·) 0

def alternate : List Nat → Int × Int
  | [] => (0, 0)
  | t :: ts =>
    let (sine, cosine) := alternate ts
    (cosine, t - sine)

def sinCosFraction (p r : Nat) : Int × Int :=
  let (sine, cosine) := alternate (powerTerms p r (p + 16) 0 (2 ^ p))
  (sine, cosine)

/-- The logarithm of a mantissa from one to two, as `2 artanh ((m - 1) / (m + 1))`. -/
def logMantissa (p m : Nat) : Nat :=
  let z := (m - 2 ^ p) * 2 ^ p / (m + 2 ^ p)
  let square := z * z / 2 ^ p
  2 * (oddSeries false (· * square / 2 ^ p) (p + 2) 0 z 0).toNat

def logQuotient (p n d : Nat) : Int :=
  let e := Binary64.logRatio n d
  let m := if 0 ≤ e then n * 2 ^ p / (d * 2 ^ e.toNat) else n * 2 ^ (p + (-e).toNat) / d
  e * ln2 p + logMantissa p m

/-- The arctangent of a fraction from zero to one: the angle is halved three times. -/
def atanFraction (p x : Nat) : Nat :=
  let half (x : Nat) : Nat := x * 2 ^ p / (2 ^ p + floorSqrt (2 ^ (2 * p) + x * x))
  let z := half (half (half x))
  let square := z * z / 2 ^ p
  8 * (oddSeries true (· * square / 2 ^ p) (p + 2) 0 z 0).toNat

def angle (p y x : Nat) : Nat :=
  if y ≤ x then atanFraction p (y * 2 ^ p / x)
  else pi p / 2 - atanFraction p (x * 2 ^ p / y)

/-- The exponential of `a / 2 ^ p`, as a mantissa in fixed point and a power of two. -/
def expScaled (p : Nat) (a : Int) : Nat × Int :=
  (expFraction p (a % ln2 p).toNat, a / ln2 p)

def toFixed (p : Nat) (m e : Int) : Int :=
  if 0 ≤ e + p then m * 2 ^ (e + p).toNat else m / 2 ^ (-(e + p)).toNat

def fixed (p : Nat) (x : Float) : Int := toFixed p (Binary64.numerator x) (Binary64.exponent x)

end Reckon.Elementary
