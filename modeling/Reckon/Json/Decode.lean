import Reckon.Json.Skip

/-! Decoding JSON into typed values. A value of the wrong type is reported where it ends, except
that a list or object is reported where it starts. A fault of an object as a whole is reported where
the object ends, or where reading it stopped. -/
namespace Reckon.Json

open Input (Shorter NoLonger)

abbrev Decoder (α : Type) := (i : Input) → Except Error (α × Shorter i)

def describe : Json → String
  | .null => "null"
  | .bool b => "boolean `" ++ (if b then "true" else "false") ++ "`"
  | .integer n => "integer `" ++ toString n ++ "`"
  | .float x => "floating point `" ++ Decimal.jsonText x ++ "`"
  | .string s => "string " ++ Text.quotedString s
  | .array _ => "sequence"
  | .object _ => "map"

/-- The fault of a value that is not of the type wanted. Blanks in front of it have been read. -/
def mismatch (wanted : String) (i : Input) : Error :=
  match i.text with
  | '[' :: _ => i.here (.invalidType "sequence" wanted)
  | '\x7b' :: _ => i.here (.invalidType "map" wanted)
  | _ =>
    match readScalar i with
    | .ok (v, ⟨j, _⟩) => j.here (.invalidType (describe v) wanted)
    | .error e => e

/-- Decodes a scalar that starts with one of the characters for which `starts` holds. -/
def scalarOf {α : Type} (wanted : String) (starts : Char → Bool) (convert : Json → Except Fault α) :
    Decoder α := fun i => do
  let j := i.skipGap
  match j.1.text with
  | [] => .error (j.1.atEnd .value)
  | c :: _ =>
    if starts c then
      let (v, k) ← readScalar j.1
      match convert v with
      | .ok a => return (a, j.transLt k)
      | .error fault => .error (k.1.here fault)
    else .error (mismatch wanted j.1)

/-- An integer below `bound`, of the type named `wanted`. -/
def naturalOf (bound : Nat) (wanted : String) : Json → Except Fault Nat
  | .integer n =>
    if 0 ≤ n ∧ n < bound then .ok n.toNat
    else .error (.invalidValue (describe (.integer n)) wanted)
  | v => .error (.invalidType (describe v) wanted)

def decodeNatural (bound : Nat) (wanted : String) : Decoder Nat :=
  scalarOf wanted (fun c => c == '-' || Decimal.isDigit c) (naturalOf bound wanted)

def wordName : String := "usize"

def decodeString : Decoder String :=
  scalarOf "a string" (· == '"') fun
    | .string s => .ok s
    | v => .error (.invalidType (describe v) "a string")

def decodeBool : Decoder Bool :=
  scalarOf "a boolean" (fun c => c == 't' || c == 'f') fun
    | .bool b => .ok b
    | v => .error (.invalidType (describe v) "a boolean")

def decodeOption {α : Type} (decode : Decoder α) : Decoder (Option α) := fun i => do
  let j := i.skipGap
  match j.1.text with
  | 'n' :: _ =>
    let (_, k) ← readScalar j.1
    return (none, j.transLt k)
  | _ =>
    let (a, k) ← decode j.1
    return (some a, j.transLt k)

/-- The fault of an object, met behind a key. -/
def objectFault (fault : Fault) (i : Input) : Error :=
  (i.pastClosing '\x7d').here fault

/-- What a record does with a member: given the fields so far and the key, it is a fault, or a
decoder of the value that gives the fields afterwards. -/
abbrev FieldStep (σ : Type) := σ → String → Except Fault (Decoder σ)

/-- The fields of an object whose opening brace has been read, behind those already decoded. -/
def decodeFields {σ : Type} (step : FieldStep σ) (first : Bool) (fields : σ) (i : Input) :
    Except Error (σ × Shorter i) := do
  let (key?, ⟨j, hj⟩) ← nextKey first i
  match key? with
  | none => return (fields, ⟨j, hj⟩)
  | some key =>
    match step fields key with
    | .error fault => .error (objectFault fault j)
    | .ok decode =>
      let k := Shorter.trans ⟨j, hj⟩ (← readColon j)
      let (fields, last) ← decode k.1
      let ⟨l, hl⟩ := k.trans last
      let (fields, m) ← decodeFields step false fields l
      return (fields, Shorter.trans ⟨l, hl⟩ m)
termination_by i.text.length

def setOnce {α σ : Type} (name : String) (field : Option α) (decode : Decoder α)
    (set : α → σ) : Except Fault (Decoder σ) :=
  match field with
  | some _ => .error (.duplicateField name)
  | none => .ok fun i => do
    let (a, rest) ← decode i
    return (set a, rest)

def ignoreField {σ : Type} (fields : σ) : Except Fault (Decoder σ) :=
  .ok fun i => do return (fields, ← skipValue i)

def closeList (i : Input) : Except Error (Shorter i) :=
  let j := i.skipGap
  match h : j.1.text with
  | [] => .error (j.1.atEnd .list)
  | c :: _ =>
    let k := j.transLt (.past h (j.1.position.after c))
    if c = ']' then .ok k
    else if c = ',' then
      let l := k.1.skipGap.1
      .error (l.ahead (if l.text.head? = some ']' then .trailingComma else .trailingCharacters))
    else .error (j.1.ahead .trailingCharacters)

/-- The next element of a list that may have ended: a list that has is not read past. -/
inductive Element (α : Type) (i : Input) where
  | decoded (value : α) (rest : Shorter i)
  | ended

def decodeElement {α : Type} (decode : Decoder α) (first : Bool) (i : Input) :
    Except Error (Element α i) := do
  match ← nextElement first i with
  | .none _ => return .ended
  | .element j =>
    let (a, k) ← decode j.1
    return .decoded a (j.transLt k)

def decodeString? {α : Type} (decode : Decoder α) (text : String) : Except Error α := do
  let (a, ⟨i, _⟩) ← decode (Input.ofString text)
  finish i
  return a

end Reckon.Json
