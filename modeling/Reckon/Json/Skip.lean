import Reckon.Json.Reader

/-! Passing over JSON values that nobody asked for. Only their shape is checked: numbers have no
range, surrogates need no partner, and brackets may be open to any depth. -/
namespace Reckon.Json

open Input (Shorter NoLonger)

def skipEscape (i : Input) : Except Error (Shorter i) :=
  match h : i.text with
  | [] => .error (i.here (.endOf .string))
  | c :: _ =>
    let j : Shorter i := .past h (i.position.after c)
    if (shortEscape? c).isSome then .ok j
    else if c = 'u' then do
      let (_, k) ← readHex j.1
      return j.trans k
    else .error (i.ahead .invalidEscape)

/-- The rest of a string whose opening quote has been read. A control character is not counted as
read. -/
def skipString (i : Input) : Except Error (Shorter i) :=
  match h : i.text with
  | [] => .error (i.here (.endOf .string))
  | c :: cs =>
    let ⟨j, hj⟩ := Shorter.past h (i.position.after c)
    if c = '"' then .ok ⟨j, hj⟩
    else if c = '\\' then do
      let ⟨k, hk⟩ ← skipEscape j
      return Shorter.trans ⟨j, hj⟩ (Shorter.trans ⟨k, hk⟩ (← skipString k))
    else if isControl c then .error (i.here .controlCharacter)
    else do
      return Shorter.trans ⟨j, hj⟩ (← skipString j)
termination_by i.text.length

def skipExponent (i : Input) : Except Error (NoLonger i) :=
  match h : i.text with
  | c :: _ =>
    if c = 'e' ∨ c = 'E' then
      let j : Shorter i := .past h (i.position.after c)
      let k := j.transLe (readSign j.1).2
      if nextDigits k.1 = [] then .error (k.1.ahead .invalidNumber)
      else .ok (k.transLe (skipDigits k.1)).toNoLonger
    else .ok (.refl i)
  | [] => .ok (.refl i)

def skipScale (i : Input) : Except Error (NoLonger i) :=
  match h : i.text with
  | '.' :: _ =>
    let j : Shorter i := .past h i.position.byte
    if nextDigits j.1 = [] then .error (j.1.ahead .invalidNumber)
    else do
      let k := j.transLe (skipDigits j.1)
      return (k.transLe (← skipExponent k.1)).toNoLonger
  | _ => skipExponent i

def skipMagnitude (i : Input) : Except Error (Shorter i) :=
  match h : i.text with
  | [] => .error (i.here .invalidNumber)
  | c :: _ =>
    let j : Shorter i := .past h (i.position.after c)
    if c = '0' ∧ nextDigits j.1 ≠ [] then .error (j.1.ahead .invalidNumber)
    else if Decimal.isDigit c then do
      let k := j.transLe (skipDigits j.1)
      return k.transLe (← skipScale k.1)
    else .error (i.ahead .invalidNumber)

def skipScalar (i : Input) : Except Error (Shorter i) :=
  match h : i.text with
  | '"' :: _ => do
    let j : Shorter i := .past h i.position.byte
    return j.trans (← skipString j.1)
  | '-' :: _ => do
    let j : Shorter i := .past h i.position.byte
    return j.trans (← skipMagnitude j.1)
  | c :: _ =>
    if Decimal.isDigit c then skipMagnitude i
    else do
      let (_, rest) ← readScalar i
      return rest
  | [] => .error (i.atEnd .value)

inductive Bracket where
  | list
  | object
deriving DecidableEq

namespace Bracket

def closing : Bracket → Char
  | .list => ']'
  | .object => '\x7d'

def construct : Bracket → Construct
  | .list => .list
  | .object => .object

def expectedEnd : Bracket → Fault
  | .list => .expectedListEnd
  | .object => .expectedObjectEnd

end Bracket

/-- The key and colon of a member; nothing in a list. -/
def skipKey (b : Bracket) (i : Input) : Except Error (NoLonger i) :=
  match b with
  | .list => .ok (.refl i)
  | .object =>
    let j := i.skipGap
    match h : j.1.text with
    | [] => .error (j.1.atEnd .object)
    | c :: _ =>
      if c = '"' then do
        let k := j.transLt (.past h (j.1.position.after c))
        let l := k.trans (← skipString k.1)
        return (l.trans (← readColon l.1)).toNoLonger
      else .error (j.1.ahead .keyNotString)

mutual

/-- The value that comes next and what is left of the brackets that are open, innermost first. -/
def skipWithin (brackets : List Bracket) (i : Input) : Except Error (Shorter i) :=
  let j := i.skipGap
  match h : j.1.text with
  | '[' :: _ => do
    let ⟨k, hk⟩ := j.transLt (.past h j.1.position.byte)
    return Shorter.transLe ⟨k, hk⟩ (← skipFirst .list brackets k)
  | '\x7b' :: _ => do
    let ⟨k, hk⟩ := j.transLt (.past h j.1.position.byte)
    return Shorter.transLe ⟨k, hk⟩ (← skipFirst .object brackets k)
  | _ => do
    let ⟨k, hk⟩ := j.transLt (← skipScalar j.1)
    return Shorter.transLe ⟨k, hk⟩ (← skipRest brackets k)
termination_by 2 * i.text.length

def skipFirst (b : Bracket) (brackets : List Bracket) (i : Input) :
    Except Error (NoLonger i) :=
  let j := i.skipGap
  match h : j.1.text with
  | [] => .error (j.1.atEnd b.construct)
  | c :: _ =>
    if c = b.closing then do
      let ⟨k, hk⟩ := j.transLt (.past h (j.1.position.after c))
      return (Shorter.transLe ⟨k, hk⟩ (← skipRest brackets k)).toNoLonger
    else do
      let ⟨k, hk⟩ := j.trans (← skipKey b j.1)
      return (NoLonger.transLt ⟨k, hk⟩ (← skipWithin (b :: brackets) k)).toNoLonger
termination_by 2 * i.text.length + 1

/-- What follows a value inside the brackets that are open. -/
def skipRest (brackets : List Bracket) (i : Input) : Except Error (NoLonger i) :=
  match brackets with
  | [] => .ok (.refl i)
  | b :: outer =>
    let j := i.skipGap
    match h : j.1.text with
    | [] => .error (j.1.atEnd b.construct)
    | c :: _ => do
      let ⟨k, hk⟩ := j.transLt (.past h (j.1.position.after c))
      if c = b.closing then
        return (Shorter.transLe ⟨k, hk⟩ (← skipRest outer k)).toNoLonger
      else if c = ',' then
        let ⟨l, hl⟩ := Shorter.transLe ⟨k, hk⟩ (← skipKey b k)
        return (Shorter.trans ⟨l, hl⟩ (← skipWithin (b :: outer) l)).toNoLonger
      else .error (j.1.ahead b.expectedEnd)
termination_by 2 * i.text.length + 1

end

def skipValue (i : Input) : Except Error (Shorter i) := skipWithin [] i

end Reckon.Json
