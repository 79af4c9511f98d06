import Reckon.Decimal.Numeral
import Reckon.Limits.Json

/-! Limits in a TOML document: lines that assign an integer to one of the two names, each at most
once, with blank lines and comments between them. Any other document is no configuration. -/
namespace Reckon.Limits

/-- Lines ended by a line feed, with or without a carriage return in front; there is no other use
for a carriage return. -/
def tomlLines? : List Char → Option (List (List Char))
  | [] => some [[]]
  | '\n' :: cs => (tomlLines? cs).map ([] :: ·)
  | '\r' :: '\n' :: cs => (tomlLines? cs).map ([] :: ·)
  | '\r' :: _ => none
  | c :: cs =>
    (tomlLines? cs).bind fun
      | line :: lines => some ((c :: line) :: lines)
      | [] => none

def isTomlGap (c : Char) : Bool := c == ' ' || c == '\t'

def skipTomlGap (cs : List Char) : List Char := cs.dropWhile isTomlGap

def isCommentChar (c : Char) : Bool := c == '\t' || (0x20 ≤ c.toNat && c.toNat != 0x7F)

def endsLine : List Char → Bool
  | [] => true
  | '#' :: cs => cs.all isCommentChar
  | _ => false

def isBareKeyChar (c : Char) : Bool := c.isAlphanum || c == '_' || c == '-'

def hexDigits? (cs : List Char) : Option Nat :=
  cs.foldlM (fun n c => (Json.hexValue? c).map (16 * n + ·)) 0

/-- A key in double quotes behind the first one. Of the escapes only those by code point can occur
in the name of a limit. -/
def basicKey? : List Char → Option (List Char × List Char)
  | [] => none
  | '"' :: rest => some ([], rest)
  | '\\' :: 'u' :: a :: b :: c :: d :: rest => do
    let n ← hexDigits? [a, b, c, d]
    let (key, rest) ← basicKey? rest
    return (Char.ofNat n :: key, rest)
  | '\\' :: 'U' :: a :: b :: c :: d :: e :: f :: g :: h :: rest => do
    let n ← hexDigits? [a, b, c, d, e, f, g, h]
    let (key, rest) ← basicKey? rest
    return (Char.ofNat n :: key, rest)
  | '\\' :: _ => none
  | c :: cs => do
    let (key, rest) ← basicKey? cs
    return (c :: key, rest)

def tomlKey? : List Char → Option (String × List Char)
  | '"' :: cs => (basicKey? cs).map fun (key, rest) => (String.ofList key, rest)
  | '\'' :: cs =>
    match cs.dropWhile (· != '\'') with
    | _ :: rest => some (String.ofList (cs.takeWhile (· != '\'')), rest)
    | [] => none
  | cs => some (String.ofList (cs.takeWhile isBareKeyChar), cs.dropWhile isBareKeyChar)

/-- The digits of a number in which single underscores may stand between digits. -/
def plainDigits? : List Char → Option (List Char)
  | [] => none
  | [c] => if c = '_' then none else some [c]
  | c :: '_' :: cs => if c = '_' then none else (plainDigits? cs).map (c :: ·)
  | c :: cs => if c = '_' then none else (plainDigits? cs).map (c :: ·)

def valueIn? (base : Nat) (cs : List Char) : Option Nat := do
  let ds ← plainDigits? cs
  ds.foldlM (fun n c => (Json.hexValue? c).bind fun d =>
    if d < base then some (base * n + d) else none) 0

def decimalInteger? (cs : List Char) : Option Nat :=
  match cs with
  | '0' :: _ :: _ => none
  | _ => valueIn? 10 cs

/-- A signed 64-bit integer that is not negative. -/
def tomlInteger? (cs : List Char) : Option Nat := do
  let n ← match cs with
    | '0' :: 'x' :: ds => valueIn? 16 ds
    | '0' :: 'o' :: ds => valueIn? 8 ds
    | '0' :: 'b' :: ds => valueIn? 2 ds
    | '+' :: ds => decimalInteger? ds
    | '-' :: ds => (decimalInteger? ds).filter (· == 0)
    | ds => decimalInteger? ds
  if n < 2 ^ 63 then some n else none

/-- Sets the limit of a name unless it is set. -/
def Partial.assign? (p : Partial) (name : String) (n : Nat) : Option Partial :=
  if name = depthField then
    if p.depth.isSome then none else some { p with depth := some n }
  else if name = lengthField then
    if p.length.isSome then none else some { p with length := some n }
  else none

def tomlLine? (p : Partial) (line : List Char) : Option Partial := do
  let body := skipTomlGap line
  if endsLine body then return p
  let (name, rest) ← tomlKey? body
  match skipTomlGap rest with
  | '=' :: rest =>
    let rest := skipTomlGap rest
    let isValueChar (c : Char) : Bool := !isTomlGap c && c != '#'
    let n ← tomlInteger? (rest.takeWhile isValueChar)
    if endsLine (skipTomlGap (rest.dropWhile isValueChar)) then p.assign? name n else none
  | _ => none

/-- The limits of a document, which may begin with a byte order mark. -/
def ofToml? (text : List Char) : Option Limits := do
  let body := match text with
    | '\uFEFF' :: cs => cs
    | cs => cs
  let p ← (← tomlLines? body).foldlM tomlLine? {}
  return p.complete

end Reckon.Limits
