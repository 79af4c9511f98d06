import Reckon.NameTable

/-! JSON values. Numbers written as 64-bit integers stay integers; objects hold each name once, in
ascending order. -/
namespace Reckon

inductive Json where
  | null
  | bool (value : Bool)
  | integer (value : Int)
  | float (value : Float)
  | string (text : String)
  | array (elements : List Json)
  | object (members : List (String × Json))

namespace Json

mutual

/-- The same value: an integer is never a float, and floats are compared as numbers. -/
def same : Json → Json → Bool
  | .null, .null => true
  | .bool a, .bool b => a == b
  | .integer a, .integer b => a == b
  | .float a, .float b => a == b
  | .string a, .string b => a == b
  | .array a, .array b => sameElements a b
  | .object a, .object b => sameMembers a b
  | _, _ => false

def sameElements : List Json → List Json → Bool
  | [], [] => true
  | a :: as, b :: bs => same a b && sameElements as bs
  | _, _ => false

def sameMembers : List (String × Json) → List (String × Json) → Bool
  | [], [] => true
  | (n, a) :: as, (m, b) :: bs => n == m && same a b && sameMembers as bs
  | _, _ => false

end

/-- What kind of value it is, for a reader. -/
def kindName : Json → String
  | .null => "null"
  | .bool _ => "a boolean"
  | .integer _ | .float _ => "a number"
  | .string _ => "a string"
  | .array _ => "an array"
  | .object _ => "an object"

end Json

end Reckon
