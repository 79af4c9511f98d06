import Reckon.Power

/-! Doubles taken apart and put together: a finite double is `± mantissa · 2 ^ exponent` with
`mantissa < 2 ^ 53` and `-1074 ≤ exponent ≤ 971`. -/
namespace Reckon.Binary64

/-- The sign bit, which zeros have too. -/
def isNegative (x : Float) : Bool := x.toBits.toNat / 2 ^ 63 == 1

def biasedExponent (x : Float) : Nat := x.toBits.toNat / 2 ^ 52 % 2 ^ 11

def fraction (x : Float) : Nat := x.toBits.toNat % 2 ^ 52

def mantissa (x : Float) : Nat :=
  if biasedExponent x = 0 then fraction x else 2 ^ 52 + fraction x

def exponent (x : Float) : Int := (max (biasedExponent x) 1 : Nat) - 1075

/-- The finite value as an integer over a power of two: `numerator · 2 ^ exponent`. -/
def numerator (x : Float) : Int := if isNegative x then -mantissa x else mantissa x

def infinity : Float := Float.ofBits 0x7FF0000000000000

def nan : Float := Float.ofBits 0x7FF8000000000000

/-- The double `± m · 2 ^ e` for `m ≤ 2 ^ 53` and `-1074 ≤ e` with `m < 2 ^ 52` only at `e = -1074`;
what is beyond the largest double is infinite. -/
def encode (negative : Bool) (m : Nat) (e : Int) : Float :=
  let magnitude := (e + 1074).toNat * 2 ^ 52 + m
  Float.ofBits (UInt64.ofNat
    (min magnitude (2047 * 2 ^ 52) + if negative then 2 ^ 63 else 0))

/-- The same double with the given sign. -/
def withSign (negative : Bool) (x : Float) : Float :=
  Float.ofBits (UInt64.ofNat (x.toBits.toNat % 2 ^ 63 + if negative then 2 ^ 63 else 0))

def abs (x : Float) : Float := if x.isNaN then x else withSign false x

end Reckon.Binary64
