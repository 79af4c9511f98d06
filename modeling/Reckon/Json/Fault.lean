/-! What can be wrong with a JSON text, and where it shows. -/
namespace Reckon.Json

inductive Construct where
  | list
  | object
  | string
  | value
deriving DecidableEq, Repr

def Construct.text : Construct → String
  | .list => "a list"
  | .object => "an object"
  | .string => "a string"
  | .value => "a value"

inductive Fault where
  | endOf (what : Construct)
  | expectedColon
  | expectedListEnd
  | expectedObjectEnd
  | expectedWord
  | expectedValue
  | invalidEscape
  | invalidNumber
  | outOfRange
  | controlCharacter
  | keyNotString
  | loneSurrogate
  | unpairedSurrogate
  | trailingComma
  | trailingCharacters
  | tooDeep
  /-- The value found is not of the type wanted. -/
  | invalidType (found wanted : String)
  | invalidValue (found wanted : String)
  | invalidLength (length : Nat) (wanted : String)
  | missingField (name : String)
  | duplicateField (name : String)
  | unknownField (name wanted : String)
  | unknownVariant (name wanted : String)
deriving DecidableEq, Repr

def Fault.text : Fault → String
  | .endOf what => "EOF while parsing " ++ what.text
  | .expectedColon => "expected `:`"
  | .expectedListEnd => "expected `,` or `]`"
  | .expectedObjectEnd => "expected `,` or `\x7d`"
  | .expectedWord => "expected ident"
  | .expectedValue => "expected value"
  | .invalidEscape => "invalid escape"
  | .invalidNumber => "invalid number"
  | .outOfRange => "number out of range"
  | .controlCharacter => "control character (\\u0000-\\u001F) found while parsing a string"
  | .keyNotString => "key must be a string"
  | .loneSurrogate => "lone leading surrogate in hex escape"
  | .unpairedSurrogate => "unexpected end of hex escape"
  | .trailingComma => "trailing comma"
  | .trailingCharacters => "trailing characters"
  | .tooDeep => "recursion limit exceeded"
  | .invalidType found wanted => "invalid type: " ++ found ++ ", expected " ++ wanted
  | .invalidValue found wanted => "invalid value: " ++ found ++ ", expected " ++ wanted
  | .invalidLength n wanted => "invalid length " ++ n.repr ++ ", expected " ++ wanted
  | .missingField name => "missing field `" ++ name ++ "`"
  | .duplicateField name => "duplicate field `" ++ name ++ "`"
  | .unknownField name wanted => "unknown field `" ++ name ++ "`, expected " ++ wanted
  | .unknownVariant name wanted => "unknown variant `" ++ name ++ "`, expected " ++ wanted

/-- A place in a text: lines count from one, and the column is the number of bytes read of the
line. -/
structure Position where
  line : Nat
  column : Nat
deriving DecidableEq, Repr

namespace Position

def byte (p : Position) : Position := ⟨p.line, p.column + 1⟩

def after (p : Position) (c : Char) : Position :=
  if c = '\n' then ⟨p.line + 1, 0⟩ else ⟨p.line, p.column + c.utf8Size⟩

def into (p : Position) (c : Char) : Position :=
  if c = '\n' then ⟨p.line + 1, 0⟩ else p.byte

/-- The place after `n` bytes of a text, which may be in the middle of a character. -/
def afterBytes (p : Position) : Nat → List Char → Position
  | 0, _ => p
  | _ + 1, [] => p
  | n + 1, c :: cs =>
    if c.utf8Size ≤ n + 1 then (p.after c).afterBytes (n + 1 - c.utf8Size) cs
    else ⟨p.line, p.column + (n + 1)⟩

end Position

structure Error where
  fault : Fault
  position : Position
deriving DecidableEq, Repr

def Error.message (e : Error) : String :=
  e.fault.text ++ " at line " ++ e.position.line.repr ++ " column " ++ e.position.column.repr

end Reckon.Json
