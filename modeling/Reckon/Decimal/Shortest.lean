import Reckon.Decimal.Numeral

/-! The fewest decimal digits that read back as a given double. -/
namespace Reckon.Decimal

/-- The number `digits · 10 ^ exponent`. -/
structure Scaled where
  digits : Nat
  exponent : Int
deriving DecidableEq, Repr

namespace Scaled

def ratio (s : Scaled) : Nat × Nat :=
  if 0 ≤ s.exponent then (s.digits * 10 ^ s.exponent.toNat, 1)
  else (s.digits, 10 ^ (-s.exponent).toNat)

def toFloat (s : Scaled) : Float := Binary64.nearest false s.ratio.1 s.ratio.2

/-- Zeros at the end of the digits moved to the exponent, as far as `fuel` goes. -/
def trim : Nat → Scaled → Scaled
  | 0, s => s
  | fuel + 1, s =>
    if s.digits % 10 = 0 ∧ s.digits ≠ 0 then trim fuel ⟨s.digits / 10, s.exponent + 1⟩ else s

end Scaled

def magnitude (x : Float) : Nat × Nat :=
  let e := Binary64.exponent x
  if 0 ≤ e then (Binary64.mantissa x <<< e.toNat, 1)
  else (Binary64.mantissa x, 1 <<< (-e).toNat)

/-- The `k` with `10 ^ (k - 1) ≤ n / d < 10 ^ k`, found from a first guess that is at most one
too low. -/
def decimalPlaces (n d : Nat) : Int :=
  let guess := Binary64.logRatio n d * 30103 / 100000
  let reached := if 0 ≤ guess then d * 10 ^ guess.toNat ≤ n else d ≤ n * 10 ^ (-guess).toNat
  let next := guess + 1
  let passed := if 0 ≤ next then d * 10 ^ next.toNat ≤ n else d ≤ n * 10 ^ (-next).toNat
  if passed then guess + 2 else if reached then guess + 1 else guess

/-- The multiple of `10 ^ e` just below `n / d`, and how twice the part cut off compares with one
step. -/
def gridFloor (n d : Nat) (e : Int) : Nat × Ordering :=
  let num := if 0 ≤ e then n else n * 10 ^ (-e).toNat
  let den := if 0 ≤ e then d * 10 ^ e.toNat else d
  (num / den, compare (2 * (num % den)) den)

inductive Tie where
  | toUpper
  | toEven
deriving DecidableEq, Repr

def Tie.prefersLower (tie : Tie) (q : Nat) : Ordering → Bool
  | .lt => true
  | .gt => false
  | .eq => tie == .toEven && q % 2 == 0

/-- A neighbour of `n / d` among the multiples of `10 ^ e` that reads back as `x`, the nearer one if
both do. -/
def onGrid? (tie : Tie) (x : Float) (n d : Nat) (e : Int) : Option Scaled :=
  let (q, rest) := gridFloor n d e
  let lower : Scaled := ⟨q, e⟩
  let upper : Scaled := ⟨q + 1, e⟩
  let (first, second) := if tie.prefersLower q rest then (lower, upper) else (upper, lower)
  if first.toFloat == x then some first else if second.toFloat == x then some second else none

def search (tie : Tie) (x : Float) (n d : Nat) (top : Int) : Nat → Nat → Option Scaled
  | 0, _ => none
  | fuel + 1, places =>
    match onGrid? tie x n d (top - (places + 1 : Nat)) with
    | some s => some s
    | none => search tie x n d top fuel (places + 1)

def exactly (n d : Nat) : Scaled := ⟨n * 5 ^ d.log2, -d.log2⟩

/-- The fewest digits that read back as the magnitude of a finite double that is not zero: 17 are
always enough. Among those with as few digits it is the nearest. -/
def shortest (tie : Tie) (x : Float) : Scaled :=
  let (n, d) := magnitude x
  let found := search tie (Binary64.abs x) n d (decimalPlaces n d) 17 0
  (found.getD (exactly n d)).trim 400

end Reckon.Decimal
