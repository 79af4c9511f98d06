import Reckon.Json.Writer
import Reckon.Math.Member
import Reckon.Version

/-! A document that lists the `Math` namespace, made from the namespace itself. -/
namespace Reckon.Math

def Constant.description (c : Constant) : String :=
  match c.name with
  | "E" => "Euler's number (2.718281828459045)"
  | "LN10" => "Natural logarithm of 10"
  | "LN2" => "Natural logarithm of 2"
  | "LOG10E" => "Base-10 logarithm of E"
  | "LOG2E" => "Base-2 logarithm of E"
  | "PI" => "Pi (3.141592653589793)"
  | "SQRT1_2" => "Square root of 1/2"
  | "SQRT2" => "Square root of 2"
  | _ => ""

def Function.description : Function → String
  | .abs => "Absolute value"
  | .acos => "Arccosine, in radians"
  | .acosh => "Hyperbolic arccosine"
  | .asin => "Arcsine, in radians"
  | .asinh => "Hyperbolic arcsine"
  | .atan => "Arctangent, in radians"
  | .atan2 => "Angle of the point (x, y), called as atan2(y, x)"
  | .atanh => "Hyperbolic arctangent"
  | .cbrt => "Cube root"
  | .ceil => "Round up to an integer"
  | .clz32 => "Leading zero bits of the 32-bit unsigned integer"
  | .cos => "Cosine of an angle in radians"
  | .cosh => "Hyperbolic cosine"
  | .exp => "E raised to the argument"
  | .expm1 => "exp(x) - 1, accurate near zero"
  | .floor => "Round down to an integer"
  | .fround => "Nearest single-precision value"
  | .hypot => "Square root of the sum of squares"
  | .imul => "32-bit integer multiplication"
  | .log => "Natural logarithm"
  | .log10 => "Base-10 logarithm"
  | .log1p => "ln(1 + x), accurate near zero"
  | .log2 => "Base-2 logarithm"
  | .max => "Largest argument; -Infinity with none"
  | .min => "Smallest argument; Infinity with none"
  | .pow => "Base raised to the exponent"
  | .round => "Round to the nearest integer, halves toward +Infinity"
  | .sign => "-1, 1, or the argument itself for zeros and NaN"
  | .sin => "Sine of an angle in radians"
  | .sinh => "Hyperbolic sine"
  | .sqrt => "Square root"
  | .tan => "Tangent of an angle in radians"
  | .tanh => "Hyperbolic tangent"
  | .trunc => "Integer part, dropping any fraction"

def Constant.row (c : Constant) : Json :=
  .object (NameTable.ofMembers
    [("name", .string c.name), ("value", .float c.value), ("description", .string c.description)])

def Arity.json : Arity → Json
  | .fixed n => .integer n
  | .variadic => .string "variadic"

def Function.row (f : Function) : Json :=
  .object (NameTable.ofMembers
    [("name", .string f.name), ("arity", f.arity.json), ("description", .string f.description)])

def table : Json :=
  .object (NameTable.ofMembers
    [("version", .string version),
      ("total_constants", .integer constants.length),
      ("total_functions", .integer Function.all.length),
      ("constants", .array (constants.map Constant.row)),
      ("functions", .array (Function.all.map Function.row))])

def tableText : String := table.pretty 0

end Reckon.Math
