import Reckon.Json.Scalar

/-! Reading JSON values. -/
namespace Reckon.Json

open Input (Shorter NoLonger)

/-- The next key of an object and what follows its closing quote, or what follows the object.
`first` says that no member has been read. -/
def nextKey (first : Bool) (i : Input) : Except Error (Option String × Shorter i) :=
  let j := i.skipGap
  match h : j.1.text with
  | [] => .error (j.1.atEnd .object)
  | c :: _ =>
    let k := j.transLt (.past h (j.1.position.after c))
    if c = '\x7d' then .ok (none, k)
    else if first then
      if c = '"' then do
        let (key, l) ← readString k.1
        return (some key, k.trans l)
      else .error (j.1.ahead .keyNotString)
    else if c = ',' then
      let l := k.transLe k.1.skipGap
      match h' : l.1.text with
      | [] => .error (l.1.atEnd .value)
      | d :: _ =>
        if d = '"' then do
          let m := l.trans (.past h' (l.1.position.after d))
          let (key, n) ← readString m.1
          return (some key, m.trans n)
        else .error (l.1.ahead (if d = '\x7d' then .trailingComma else .keyNotString))
    else .error (j.1.ahead .expectedObjectEnd)

def readColon (i : Input) : Except Error (Shorter i) :=
  let j := i.skipGap
  match h : j.1.text with
  | [] => .error (j.1.atEnd .object)
  | c :: _ =>
    if c = ':' then .ok (j.transLt (.past h (j.1.position.after c)))
    else .error (j.1.ahead .expectedColon)

inductive NextElement (i : Input) where
  | element (start : NoLonger i)
  | none (rest : Shorter i)

/-- Looks for the next element of a list; `first` says that none has been read. -/
def nextElement (first : Bool) (i : Input) : Except Error (NextElement i) :=
  let j := i.skipGap
  match h : j.1.text with
  | [] => .error (j.1.atEnd .list)
  | c :: _ =>
    let k := j.transLt (.past h (j.1.position.after c))
    if c = ']' then .ok (.none k)
    else if first then .ok (.element j)
    else if c = ',' then
      let l := k.transLe k.1.skipGap
      match l.1.text with
      | [] => .error (l.1.atEnd .value)
      | d :: _ =>
        if d = ']' then .error (l.1.ahead .trailingComma)
        else .ok (.element l.toNoLonger)
    else .error (j.1.ahead .expectedListEnd)

mutual

/-- A value, inside which `depth` more brackets may be open at a time. -/
def readValue (depth : Nat) (i : Input) : Except Error (Json × Shorter i) :=
  let j := i.skipGap
  match h : j.1.text, depth with
  | '[' :: _, depth + 1 => do
    let ⟨k, hk⟩ := j.transLt (.past h j.1.position.byte)
    let (elements, l) ← readElements depth true [] k
    return (.array elements, Shorter.trans ⟨k, hk⟩ l)
  | '\x7b' :: _, depth + 1 => do
    let ⟨k, hk⟩ := j.transLt (.past h j.1.position.byte)
    let (members, l) ← readMembers depth true [] k
    return (.object members, Shorter.trans ⟨k, hk⟩ l)
  | '[' :: _, 0 | '\x7b' :: _, 0 => .error (j.1.ahead .tooDeep)
  | _, _ => do
    let (v, k) ← readScalar j.1
    return (v, j.transLt k)
termination_by 2 * i.text.length

/-- The elements of a list behind those already read, last first. -/
def readElements (depth : Nat) (first : Bool) (read : List Json) (i : Input) :
    Except Error (List Json × Shorter i) := do
  match ← nextElement first i with
  | .none rest => return (read.reverse, rest)
  | .element ⟨j, hj⟩ =>
    let (v, last) ← readValue depth j
    let ⟨k, hk⟩ := NoLonger.transLt ⟨j, hj⟩ last
    let (vs, l) ← readElements depth false (v :: read) k
    return (vs, Shorter.trans ⟨k, hk⟩ l)
termination_by 2 * i.text.length + 1

def readMembers (depth : Nat) (first : Bool) (read : List (String × Json)) (i : Input) :
    Except Error (List (String × Json) × Shorter i) := do
  let (key?, ⟨j, hj⟩) ← nextKey first i
  match key? with
  | none => return (read, ⟨j, hj⟩)
  | some key =>
    let ⟨k, hk⟩ := Shorter.trans ⟨j, hj⟩ (← readColon j)
    let (v, last) ← readValue depth k
    let ⟨l, hl⟩ := Shorter.trans ⟨k, hk⟩ last
    let (ms, m) ← readMembers depth false (NameTable.insert key v read) l
    return (ms, Shorter.trans ⟨l, hl⟩ m)
termination_by 2 * i.text.length + 1

end

def depthLimit : Nat := 127

def finish (i : Input) : Except Error Unit :=
  let ⟨j, _⟩ := i.skipGap
  if j.text = [] then .ok () else .error (j.ahead .trailingCharacters)

def ofString (s : String) : Except Error Json := do
  let (v, ⟨i, _⟩) ← readValue depthLimit (Input.ofString s)
  finish i
  return v

end Reckon.Json
