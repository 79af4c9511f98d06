import Reckon.Binary64.Basic

/-! Greatest and least of a list of doubles: NaN is contagious, and `-0` is below `+0`. -/
namespace Reckon.Binary64

def isAbove (a b : Float) : Bool := a > b || (a == 0 && b == 0 && isNegative b)

def isBelow (a b : Float) : Bool := a < b || (a == 0 && b == 0 && isNegative a)

/-- The best of `best` and the list, where `prefer a b` says that `a` wins over `b`. -/
def extremum (prefer : Float → Float → Bool) (best : Float) : List Float → Float
  | [] => best
  | x :: xs => if x.isNaN then nan else extremum prefer (if prefer x best then x else best) xs

def maximum (xs : List Float) : Float := extremum isAbove (-infinity) xs

def minimum (xs : List Float) : Float := extremum isBelow infinity xs

end Reckon.Binary64
