import Reckon.Json.Reader
import Reckon.Text.Blank

/-! Variables and the values bound to them. A value is kept as it was supplied and becomes a number
only when an expression reads it. -/
namespace Reckon

inductive BoundValue where
  /-- A number supplied as such, which need not be finite. -/
  | number (value : Float)
  | json (value : Json)

namespace BoundValue

/-- Blank text counts as zero, any other must be a decimal numeral between blanks. -/
def textNumber? (s : String) : Option Float :=
  match Text.trim s.toList with
  | [] => some 0
  | cs => Decimal.signed? cs

/-- The number a value stands for, whether finite or not. -/
def rawNumber? : BoundValue → Option Float
  | .number x => some x
  | .json (.integer n) => some (Binary64.ofInt n)
  | .json (.float x) => some x
  | .json (.bool b) => some (if b then 1 else 0)
  | .json .null => some 0
  | .json (.string s) => textNumber? s
  | .json (.array _) | .json (.object _) => none

/-- The finite number a value stands for. -/
def number? (v : BoundValue) : Option Float := v.rawNumber?.filter Float.isFinite

def same : BoundValue → BoundValue → Bool
  | .number a, .number b => a == b
  | .json a, .json b => a.same b
  | _, _ => false

end BoundValue

inductive BindingsError where
  | reservedName (name : String)
  | notAnObject (kind : String)
  | json (error : Json.Error)

namespace BindingsError

def kind : BindingsError → String
  | .reservedName _ => "reserved_name"
  | .notAnObject _ => "not_an_object"
  | .json _ => "json"

def message : BindingsError → String
  | .reservedName name => "`" ++ name ++ "` is reserved and cannot be bound"
  | .notAnObject kind => "bindings must be a JSON object, got " ++ kind
  | .json error => "invalid bindings JSON: " ++ error.message

end BindingsError

/-- Bound names with their values, in ascending order of the names. -/
structure Bindings where
  table : List (String × BoundValue)

namespace Bindings

def empty : Bindings := ⟨[]⟩

/-- The name of the namespace of constants and functions, which no variable can take. -/
def reserved : String := "Math"

def insert (b : Bindings) (name : String) (value : BoundValue) : Except BindingsError Bindings :=
  if name = reserved then .error (.reservedName name)
  else .ok ⟨NameTable.insert name value b.table⟩

/-- The same in place. A reserved name is refused before anything is bound. -/
def insertInPlace (name : String) (value : BoundValue) :
    ExceptT BindingsError (StateM Bindings) Unit := do
  if name = reserved then throw (.reservedName name)
  modify fun b => ⟨NameTable.insert name value b.table⟩

def including (b : Bindings) (name : String) (value : BoundValue) :
    Except BindingsError Bindings :=
  match (insertInPlace name value).run.run b with
  | (.ok (), c) => .ok c
  | (.error e, _) => .error e

def insertAll (b : Bindings) : List (String × Json) → Except BindingsError Bindings
  | [] => .ok b
  | (name, v) :: rest => do (← b.insert name (.json v)).insertAll rest

def ofJson? : Json → Except BindingsError Bindings
  | .object members => empty.insertAll members
  | v => .error (.notAnObject v.kindName)

def ofText? (text : String) : Except BindingsError Bindings :=
  match Json.ofString text with
  | .ok v => ofJson? v
  | .error e => .error (.json e)

/-- As `ofText?`, but blank text means no bindings. -/
def ofOptionalText? (text : String) : Except BindingsError Bindings :=
  if Text.isBlankText text.toList then .ok empty else ofText? text

def get? (b : Bindings) (name : String) : Option BoundValue := NameTable.find? name b.table

def contains (b : Bindings) (name : String) : Bool := (b.get? name).isSome

def size (b : Bindings) : Nat := b.table.length

def names (b : Bindings) : List String := b.table.map (·.1)

def same (a b : Bindings) : Bool :=
  a.names == b.names && (a.table.zip b.table).all fun (x, y) => x.2.same y.2

theorem get?_insert {b c : Bindings} {name : String} {value : BoundValue}
    (h : b.insert name value = .ok c) (other : String) :
    c.get? other = if name = other then some value else b.get? other := by
  unfold insert at h
  split at h
  · cases h
  · cases h
    exact NameTable.find?_insert ..

end Bindings

end Reckon
