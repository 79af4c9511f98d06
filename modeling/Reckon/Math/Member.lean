import Reckon.Math.Function

/-! Members of the `Math` namespace: constants, which are used bare, and functions, which are
called. -/
namespace Reckon.Math

structure Constant where
  name : String
  value : Float

/-- Every constant, in the order of the names. -/
def constants : List Constant :=
  [⟨"E", 2.718281828459045⟩,
    ⟨"LN10", 2.302585092994046⟩,
    ⟨"LN2", 0.6931471805599453⟩,
    ⟨"LOG10E", 0.4342944819032518⟩,
    ⟨"LOG2E", 1.4426950408889634⟩,
    ⟨"PI", 3.141592653589793⟩,
    ⟨"SQRT1_2", 0.7071067811865476⟩,
    ⟨"SQRT2", 1.4142135623730951⟩]

inductive Member where
  | constant (value : Float)
  | function (f : Function)

def Member.constant? : Member → Option Float
  | .constant x => some x
  | .function _ => none

def Member.function? : Member → Option Function
  | .function f => some f
  | .constant _ => none

/-- The member of that very name. -/
def member? (name : String) : Option Member :=
  match constants.find? (·.name == name) with
  | some c => some (.constant c.value)
  | none => (Function.ofName? name).map .function

end Reckon.Math
