import Reckon.Binary64.Rounding

/-! Correct rounding of real numbers that can only be approximated: a number is enclosed ever more
tightly until both ends of the enclosure round to the same double. -/
namespace Reckon.Elementary

/-- A real number between `lower · 2 ^ exponent` and `upper · 2 ^ exponent`. -/
structure Enclosure where
  lower : Int
  upper : Int
  exponent : Int

namespace Enclosure

def around (a : Int) (radius : Nat) (e : Int) : Enclosure := ⟨a - radius, a + radius, e⟩

def roundEnd (a e : Int) : Float := Binary64.nearestScaled (a < 0) a.natAbs e

/-- The double to which every number of the enclosure rounds. -/
def decide? (c : Enclosure) : Option Float :=
  let low := roundEnd c.lower c.exponent
  if low.toBits = (roundEnd c.upper c.exponent).toBits then some low else none

/-- The double nearest to the number with the fewest bits near the middle: where no enclosure
decides, the number lies halfway between two doubles. -/
def settle (c : Enclosure) (precision : Nat) : Float :=
  let middle := (c.lower + c.upper) / 2
  let half := precision / 2
  let coarse := (middle + 2 ^ (half - 1)) / 2 ^ half
  roundEnd coarse (c.exponent + half)

end Enclosure

def precisions : List Nat := [128, 256, 512, 1024, 2048]

def lastPrecision : Nat := 4352

/-- The double nearest to the real number that `f` encloses, given a number of bits. -/
def correctlyRounded (f : Nat → Enclosure) : Float :=
  match precisions.findSome? fun p => (f p).decide? with
  | some x => x
  | none =>
    let c := f lastPrecision
    c.decide?.getD (c.settle lastPrecision)

end Reckon.Elementary
