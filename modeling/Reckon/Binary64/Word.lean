import Reckon.Binary64.Integral
import Reckon.Binary64.Remainder

/-! Doubles read as 32-bit words: the integer part, wrapped modulo `2 ^ 32`. -/
namespace Reckon.Binary64

def euclideanRemainder (x y : Float) : Float :=
  let r := remainder x y
  if r < 0 then r + abs y else r

/-- The unsigned word; what is not finite counts as zero. -/
def toWord (x : Float) : UInt32 :=
  if x.isFinite then (euclideanRemainder (truncate x) 4294967296).toUInt32 else 0

/-- The same word in two's complement. -/
def toSignedWord (x : Float) : Int32 := (toWord x).toInt32

def wordProduct (x y : Float) : Float := ofInt (toSignedWord x * toSignedWord y).toInt

def leadingZeros (x : Float) : Float :=
  let w := (toWord x).toNat
  ofNat (if w = 0 then 32 else 31 - w.log2)

end Reckon.Binary64
