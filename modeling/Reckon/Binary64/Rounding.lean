import Reckon.Binary64.Basic

/-! Rounding of exact quotients to the nearest double, ties to the even mantissa. -/
namespace Reckon.Binary64

/-- The integer nearest to `n / d`, the even one at a midpoint. -/
def roundDiv (n d : Nat) : Nat :=
  let q := n / d
  let r := n % d
  if 2 * r < d then q
  else if d < 2 * r then q + 1
  else q + q % 2

/-- The greatest `k` with `2 ^ k ≤ n / d`. -/
def logRatio (n d : Nat) : Int :=
  let k : Int := n.log2 - d.log2
  let reached := if 0 ≤ k then d <<< k.toNat ≤ n else d ≤ n <<< (-k).toNat
  if reached then k else k - 1

def roundScaled (n d : Nat) (e : Int) : Nat :=
  if 0 ≤ e then roundDiv n (d <<< e.toNat) else roundDiv (n <<< (-e).toNat) d

/-- The double nearest to `± n / d`. The last place of the quotient weighs `2 ^ e`, where `e` leaves
53 bits and never falls below the last place of the subnormals. -/
def nearest (negative : Bool) (n d : Nat) : Float :=
  if n = 0 then encode negative 0 (-1074)
  else
    let e := max (logRatio n d - 52) (-1074)
    encode negative (roundScaled n d e) e

def nearestScaled (negative : Bool) (m : Nat) (e : Int) : Float :=
  if 0 ≤ e then nearest negative (m <<< e.toNat) 1 else nearest negative m (1 <<< (-e).toNat)

def ofNat (n : Nat) : Float := nearest false n 1

def ofInt (n : Int) : Float := nearest (n < 0) n.natAbs 1

theorem roundDiv_exact (q d : Nat) (hd : 0 < d) : roundDiv (q * d) d = q := by
  simp [roundDiv, Nat.mul_div_cancel _ hd, hd]

end Reckon.Binary64
