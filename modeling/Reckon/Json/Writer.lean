import Reckon.Decimal.Layout
import Reckon.Json.Value

/-! Writing JSON: compact records with their fields in a given order, and indented documents. -/
namespace Reckon.Json

def hexDigit (n : Nat) : Char :=
  if n < 10 then Char.ofNat ('0'.toNat + n) else Char.ofNat ('a'.toNat + (n - 10))

/-- A character inside quotes. Quotes, backslashes and control characters are escaped; all else is
written as it is. -/
def writeChar (c : Char) : List Char :=
  if c = '"' then ['\\', '"']
  else if c = '\\' then ['\\', '\\']
  else if c = '\x08' then ['\\', 'b']
  else if c = '\x0c' then ['\\', 'f']
  else if c = '\n' then ['\\', 'n']
  else if c = '\r' then ['\\', 'r']
  else if c = '\t' then ['\\', 't']
  else if c.toNat < 0x20 then
    ['\\', 'u', '0', '0', hexDigit (c.toNat / 16), hexDigit (c.toNat % 16)]
  else [c]

def writeString (s : String) : String :=
  String.ofList ('"' :: (s.toList.flatMap writeChar ++ ['"']))

def writeBool (b : Bool) : String := if b then "true" else "false"

def writeList (elements : List String) : String := "[" ++ ",".intercalate elements ++ "]"

/-- Named fields in braces, each with the text of its value; absent ones are left out. -/
def writeRecord (fields : List (String × Option String)) : String :=
  let present := fields.filterMap fun (name, text?) => text?.map (writeString name ++ ":" ++ ·)
  "\x7b" ++ ",".intercalate present ++ "\x7d"

def writeScalar : Json → String
  | .bool b => writeBool b
  | .integer n => toString n
  | .float x => if x.isFinite then Decimal.jsonText x else "null"
  | .string s => writeString s
  | _ => "null"

def indent (level : Nat) : String := "\n" ++ String.ofList (List.replicate (2 * level) ' ')

mutual

/-- A value over several lines, at a level of indentation. -/
def pretty (level : Nat) : Json → String
  | .array [] => "[]"
  | .array (v :: vs) =>
    "[" ++ indent (level + 1) ++ pretty (level + 1) v ++ prettyElements (level + 1) vs
      ++ indent level ++ "]"
  | .object [] => "\x7b\x7d"
  | .object ((name, v) :: ms) =>
    "\x7b" ++ indent (level + 1) ++ writeString name ++ ": " ++ pretty (level + 1) v
      ++ prettyMembers (level + 1) ms ++ indent level ++ "\x7d"
  | v => writeScalar v

def prettyElements (level : Nat) : List Json → String
  | [] => ""
  | v :: vs => "," ++ indent level ++ pretty level v ++ prettyElements level vs

def prettyMembers (level : Nat) : List (String × Json) → String
  | [] => ""
  | (name, v) :: ms =>
    "," ++ indent level ++ writeString name ++ ": " ++ pretty level v ++ prettyMembers level ms

end

end Reckon.Json
