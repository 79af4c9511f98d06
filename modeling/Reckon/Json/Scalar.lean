import Reckon.Decimal.Layout
import Reckon.Json.Input
import Reckon.Json.Value
import Reckon.Text.Bytes
import Reckon.Text.Quoted

/-! JSON words, strings and numbers. -/
namespace Reckon.Json

open Input (Shorter NoLonger)

def readWord : List Char → (i : Input) → Except Error (NoLonger i)
  | [], i => .ok (.refl i)
  | _ :: _, ⟨[], position⟩ => .error ⟨.endOf .value, position⟩
  | expected :: more, ⟨c :: cs, position⟩ =>
    if c = expected then do
      let ⟨j, h⟩ ← readWord more ⟨cs, position.after c⟩
      return ⟨j, Nat.le_succ_of_le h⟩
    else .error ⟨.expectedWord, position.into c⟩

/-! ### Strings -/

def hexValue? (c : Char) : Option Nat :=
  if '0' ≤ c ∧ c ≤ '9' then some (c.toNat - '0'.toNat)
  else if 'a' ≤ c ∧ c ≤ 'f' then some (c.toNat - 'a'.toNat + 10)
  else if 'A' ≤ c ∧ c ≤ 'F' then some (c.toNat - 'A'.toNat + 10)
  else none

/-- Bytes that the text has, but no more than it has characters to `limit`. -/
def bytesWithin (limit : Nat) (cs : List Char) : Nat :=
  Text.byteLength (cs.take limit)

/-- Four hexadecimal digits. Four bytes are read before they are judged. -/
def readHex (i : Input) : Except Error (Nat × Shorter i) :=
  match h : i.text with
  | a :: b :: c :: d :: rest =>
    match hexValue? a, hexValue? b, hexValue? c, hexValue? d with
    | some a', some b', some c', some d' =>
      .ok (((a' * 16 + b') * 16 + c') * 16 + d',
        ⟨⟨rest, (((i.position.after a).after b).after c).after d⟩,
          by simp only [h, List.length_cons]; omega⟩)
    | _, _, _, _ => .error ⟨.invalidEscape, i.position.afterBytes 4 i.text⟩
  | text =>
    if bytesWithin 4 text < 4 then
      .error ⟨.endOf .string, i.position.afterBytes 4 text⟩
    else .error ⟨.invalidEscape, i.position.afterBytes 4 text⟩

def isHighSurrogate (n : Nat) : Bool := 0xD800 ≤ n && n ≤ 0xDBFF

def isLowSurrogate (n : Nat) : Bool := 0xDC00 ≤ n && n ≤ 0xDFFF

def readMark (mark : Char) (i : Input) : Except Error (Shorter i) :=
  match h : i.text with
  | [] => .error (i.here (.endOf .string))
  | c :: _ =>
    if c = mark then .ok (.past h (i.position.after c))
    else .error (i.ahead .unpairedSurrogate)

/-- The character of a `\u` escape, which may need a second escape. -/
def readUnicode (i : Input) : Except Error (Char × Shorter i) := do
  let (n, j) ← readHex i
  if isLowSurrogate n then .error (j.1.here .loneSurrogate)
  else if isHighSurrogate n then do
    let k := j.trans (← readMark '\\' j.1)
    let k' := k.trans (← readMark 'u' k.1)
    let (m, l) ← readHex k'.1
    if isLowSurrogate m then
      return (Char.ofNat (0x10000 + (n - 0xD800) * 0x400 + (m - 0xDC00)), k'.trans l)
    else .error (l.1.here .loneSurrogate)
  else return (Char.ofNat n, j)

def shortEscape? : Char → Option Char
  | '"' => some '"'
  | '\\' => some '\\'
  | '/' => some '/'
  | 'b' => some '\x08'
  | 'f' => some '\x0c'
  | 'n' => some '\n'
  | 'r' => some '\r'
  | 't' => some '\t'
  | _ => none

def readEscape (i : Input) : Except Error (Char × Shorter i) :=
  match h : i.text with
  | [] => .error (i.here (.endOf .string))
  | c :: _ =>
    let j : Shorter i := .past h (i.position.after c)
    match shortEscape? c with
    | some d => .ok (d, j)
    | none =>
      if c = 'u' then do
        let (d, k) ← readUnicode j.1
        return (d, j.trans k)
      else .error (i.ahead .invalidEscape)

def isControl (c : Char) : Bool := c.toNat < 0x20

/-- The rest of a string behind its opening quote, after the characters of `read`, last first. -/
def readChars (read : List Char) (i : Input) : Except Error (String × Shorter i) :=
  match h : i.text with
  | [] => .error (i.here (.endOf .string))
  | c :: cs =>
    let ⟨j, hj⟩ := Shorter.past h (i.position.after c)
    if c = '"' then .ok (String.ofList read.reverse, ⟨j, hj⟩)
    else if c = '\\' then do
      let (d, ⟨k, hk⟩) ← readEscape j
      let (s, l) ← readChars (d :: read) k
      return (s, Shorter.trans ⟨j, hj⟩ (Shorter.trans ⟨k, hk⟩ l))
    else if isControl c then .error (j.here .controlCharacter)
    else do
      let (s, l) ← readChars (c :: read) j
      return (s, Shorter.trans ⟨j, hj⟩ l)
termination_by i.text.length

def readString (i : Input) : Except Error (String × Shorter i) := readChars [] i

/-! ### Numbers -/

def nextDigits (i : Input) : List Char := i.text.takeWhile Decimal.isDigit

def skipDigits (i : Input) : NoLonger i :=
  ⟨i.dropWhile Decimal.isDigit, Input.length_dropWhile _ _⟩

def wordLimit : Nat := 2 ^ 64

/-- Appends digits to a word as long as they fit; also how many of them did not. -/
def collect (n : Nat) : List Char → Nat × Nat
  | [] => (n, 0)
  | d :: ds =>
    let m := 10 * n + Decimal.digitValue d
    if m < wordLimit then collect m ds else (n, ds.length + 1)

def exponentLimit : Nat := 2 ^ 31

/-- The value of exponent digits, or the number of digits at which it leaves its word. -/
def collectExponent (n read : Nat) : List Char → Except Nat Nat
  | [] => .ok n
  | d :: ds =>
    let m := 10 * n + Decimal.digitValue d
    if m < exponentLimit then collectExponent m (read + 1) ds else .error (read + 1)

def largestPower : Nat := 308

/-- Scales to `x · 10 ^ e` by one multiplication or division of doubles, after divisions by the
largest power for as long as `e` is below it; `none` when the result is infinite. -/
def applyPower (x : Float) (e : Int) : Option Float :=
  if e.natAbs ≤ largestPower then
    let power := Binary64.ofNat (10 ^ e.natAbs)
    if 0 ≤ e then if (x * power).isInf then none else some (x * power)
    else some (x / power)
  else if x == 0 then some x
  else if 0 ≤ e then none
  else applyPower (x / Binary64.ofNat (10 ^ largestPower)) (e + largestPower)
termination_by e.natAbs
decreasing_by
  simp only [largestPower] at *
  omega

/-- The number behind a collected word and its power of ten, read up to `i`. -/
def floatOf (negative : Bool) (word : Nat) (e : Int) (i : Input) : Except Error Json :=
  match applyPower (Binary64.ofNat word) e with
  | some x => .ok (.float (if negative then -x else x))
  | none => .error (i.here .outOfRange)

def readSign (i : Input) : Bool × NoLonger i :=
  match h : i.text with
  | '+' :: _ => (false, (Shorter.past h i.position.byte).toNoLonger)
  | '-' :: _ => (true, (Shorter.past h i.position.byte).toNoLonger)
  | _ => (false, .refl i)

def readExponent (negative : Bool) (word : Nat) (e : Int) (i : Input) :
    Except Error (Json × NoLonger i) :=
  let (down, j) := readSign i
  match j.1.text with
  | [] => .error (j.1.here (.endOf .value))
  | c :: _ =>
    if Decimal.isDigit c then
      let k := j.trans (skipDigits j.1)
      match collectExponent 0 0 (nextDigits j.1) with
      | .ok n => do
        let v ← floatOf negative word (if down then e - n else e + n) k.1
        return (v, k)
      | .error read =>
        if word ≠ 0 ∧ ¬down then
          .error ⟨.outOfRange, j.1.position.afterBytes read j.1.text⟩
        else .ok (.float (if negative then -0.0 else 0.0), k)
    else .error (j.1.ahead .invalidNumber)

/-- What follows the digits of a number, of which `skipped` did not fit into the word. -/
def readScale (negative : Bool) (word : Nat) (e : Int) (i : Input) :
    Except Error (Json × NoLonger i) :=
  match h : i.text with
  | c :: _ =>
    if c = 'e' ∨ c = 'E' then do
      let j : Shorter i := .past h (i.position.after c)
      let (v, k) ← readExponent negative word e j.1
      return (v, (j.transLe k).toNoLonger)
    else do
      let v ← floatOf negative word e i
      return (v, .refl i)
  | [] => do
    let v ← floatOf negative word e i
    return (v, .refl i)

def readFraction (negative : Bool) (word : Nat) (e : Int) (i : Input) :
    Except Error (Json × NoLonger i) :=
  let ds := nextDigits i
  if ds = [] then
    .error (i.ahead (if i.text = [] then .endOf .value else .invalidNumber))
  else
    let (word, unread) := collect word ds
    let j := skipDigits i
    do
      let (v, k) ← readScale negative word (e - (ds.length - unread : Nat)) j.1
      return (v, j.trans k)

/-- A number without point or exponent; negative zero and what no signed word holds are floats. -/
def integerOf (negative : Bool) (word : Nat) : Json :=
  if negative then
    if word = 0 ∨ 2 ^ 63 < word then .float (-Binary64.ofNat word) else .integer (-word)
  else .integer word

def readAfterWhole (negative : Bool) (word unread : Nat) (i : Input) :
    Except Error (Json × NoLonger i) :=
  match h : i.text with
  | '.' :: _ => do
    let j : Shorter i := .past h i.position.byte
    let (v, k) ← readFraction negative word unread j.1
    return (v, (j.transLe k).toNoLonger)
  | 'e' :: _ | 'E' :: _ => readScale negative word unread i
  | _ =>
    if unread = 0 then .ok (integerOf negative word, .refl i)
    else readScale negative word unread i

def readMagnitude (negative : Bool) (i : Input) : Except Error (Json × Shorter i) :=
  match h : i.text with
  | [] => .error (i.here (.endOf .value))
  | c :: _ =>
    let j : Shorter i := .past h (i.position.after c)
    if c = '0' then
      if nextDigits j.1 ≠ [] then .error (j.1.ahead .invalidNumber)
      else do
        let (v, k) ← readAfterWhole negative 0 0 j.1
        return (v, j.transLe k)
    else if Decimal.isDigit c then
      let (word, unread) := collect (Decimal.digitValue c) (nextDigits j.1)
      let k := j.transLe (skipDigits j.1)
      do
        let (v, l) ← readAfterWhole negative word unread k.1
        return (v, k.transLe l)
    else .error (i.ahead .invalidNumber)

/-! ### All of them -/

def readScalar (i : Input) : Except Error (Json × Shorter i) :=
  match h : i.text with
  | [] => .error (i.atEnd .value)
  | c :: _ =>
    let j : Shorter i := .past h (i.position.after c)
    let word (letters : List Char) (v : Json) : Except Error (Json × Shorter i) := do
      return (v, j.transLe (← readWord letters j.1))
    if c = 'n' then word ['u', 'l', 'l'] .null
    else if c = 't' then word ['r', 'u', 'e'] (.bool true)
    else if c = 'f' then word ['a', 'l', 's', 'e'] (.bool false)
    else if c = '"' then do
      let (s, k) ← readString j.1
      return (.string s, j.trans k)
    else if c = '-' then do
      let (v, k) ← readMagnitude true j.1
      return (v, j.trans k)
    else if Decimal.isDigit c then readMagnitude false i
    else .error (i.ahead .expectedValue)

end Reckon.Json
