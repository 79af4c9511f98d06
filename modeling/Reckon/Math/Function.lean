import Reckon.Binary64.Extremum
import Reckon.Binary64.Integral
import Reckon.Binary64.Single
import Reckon.Binary64.Word
import Reckon.Elementary.Circular
import Reckon.Elementary.Exponential
import Reckon.Elementary.Logarithm
import Reckon.Elementary.Power

/-! The functions of the `Math` namespace. -/
namespace Reckon.Math

inductive Arity where
  | fixed (count : Nat)
  | variadic
deriving DecidableEq, Repr

def Arity.text : Arity → String
  | .fixed n => n.repr
  | .variadic => "variadic"

inductive Function where
  | abs
  | acos
  | acosh
  | asin
  | asinh
  | atan
  | atan2
  | atanh
  | cbrt
  | ceil
  | clz32
  | cos
  | cosh
  | exp
  | expm1
  | floor
  | fround
  | hypot
  | imul
  | log
  | log10
  | log1p
  | log2
  | max
  | min
  | pow
  | round
  | sign
  | sin
  | sinh
  | sqrt
  | tan
  | tanh
  | trunc
deriving DecidableEq, Repr

namespace Function

def all : List Function :=
  [.abs, .acos, .acosh, .asin, .asinh, .atan, .atan2, .atanh, .cbrt, .ceil, .clz32, .cos, .cosh,
    .exp, .expm1, .floor, .fround, .hypot, .imul, .log, .log10, .log1p, .log2, .max, .min, .pow,
    .round, .sign, .sin, .sinh, .sqrt, .tan, .tanh, .trunc]

def name : Function → String
  | .abs => "abs"
  | .acos => "acos"
  | .acosh => "acosh"
  | .asin => "asin"
  | .asinh => "asinh"
  | .atan => "atan"
  | .atan2 => "atan2"
  | .atanh => "atanh"
  | .cbrt => "cbrt"
  | .ceil => "ceil"
  | .clz32 => "clz32"
  | .cos => "cos"
  | .cosh => "cosh"
  | .exp => "exp"
  | .expm1 => "expm1"
  | .floor => "floor"
  | .fround => "fround"
  | .hypot => "hypot"
  | .imul => "imul"
  | .log => "log"
  | .log10 => "log10"
  | .log1p => "log1p"
  | .log2 => "log2"
  | .max => "max"
  | .min => "min"
  | .pow => "pow"
  | .round => "round"
  | .sign => "sign"
  | .sin => "sin"
  | .sinh => "sinh"
  | .sqrt => "sqrt"
  | .tan => "tan"
  | .tanh => "tanh"
  | .trunc => "trunc"

def qualifiedName (f : Function) : String := "Math." ++ f.name

def ofName? (name : String) : Option Function := all.find? (·.name == name)

def arity : Function → Arity
  | .atan2 | .imul | .pow => .fixed 2
  | .hypot | .max | .min => .variadic
  | _ => .fixed 1

/-- An argument; one that is missing is NaN. -/
def argument (args : List Float) (i : Nat) : Float := args.getD i Binary64.nan

/-- The value for a list of arguments, of which those beyond the arity are not read. -/
def apply (f : Function) (args : List Float) : Float :=
  let x := argument args 0
  let y := argument args 1
  match f with
  | .abs => Binary64.abs x
  | .acos => Elementary.acos x
  | .acosh => Elementary.acosh x
  | .asin => Elementary.asin x
  | .asinh => Elementary.asinh x
  | .atan => Elementary.atan x
  | .atan2 => Elementary.atan2 x y
  | .atanh => Elementary.atanh x
  | .cbrt => Elementary.cbrt x
  | .ceil => Binary64.ceiling x
  | .clz32 => Binary64.leadingZeros x
  | .cos => Elementary.cos x
  | .cosh => Elementary.cosh x
  | .exp => Elementary.exp x
  | .expm1 => Elementary.expm1 x
  | .floor => Binary64.floor x
  | .fround => Binary64.toSingle x
  | .hypot => Elementary.hypot args
  | .imul => Binary64.wordProduct x y
  | .log => Elementary.log x
  | .log10 => Elementary.log10 x
  | .log1p => Elementary.log1p x
  | .log2 => Elementary.log2 x
  | .max => Binary64.maximum args
  | .min => Binary64.minimum args
  | .pow => Elementary.pow x y
  | .round => Binary64.roundHalfUp x
  | .sign => Binary64.signOf x
  | .sin => Elementary.sin x
  | .sinh => Elementary.sinh x
  | .sqrt => x.sqrt
  | .tan => Elementary.tan x
  | .tanh => Elementary.tanh x
  | .trunc => Binary64.truncate x

theorem mem_all (f : Function) : f ∈ all := by cases f <;> decide

end Function

end Reckon.Math
