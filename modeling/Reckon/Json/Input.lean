import Reckon.Json.Fault

/-! The part of a JSON text that is still to be read, and its place in the whole. -/
namespace Reckon.Json

structure Input where
  text : List Char
  position : Position

namespace Input

/-- What is left after something was read. -/
abbrev Shorter (i : Input) := { j : Input // j.text.length < i.text.length }

/-- What is left after something or nothing was read. -/
abbrev NoLonger (i : Input) := { j : Input // j.text.length ≤ i.text.length }

namespace Shorter

variable {i : Input}

abbrev past {c : Char} {cs : List Char} (h : i.text = c :: cs) (position : Position) : Shorter i :=
  ⟨⟨cs, position⟩, by simp [h]⟩

abbrev trans (left : Shorter i) (last : Shorter left.1) : Shorter i :=
  ⟨last.1, Nat.lt_trans last.2 left.2⟩

abbrev transLe (left : Shorter i) (last : NoLonger left.1) : Shorter i :=
  ⟨last.1, Nat.lt_of_le_of_lt last.2 left.2⟩

abbrev toNoLonger (left : Shorter i) : NoLonger i := ⟨left.1, Nat.le_of_lt left.2⟩

end Shorter

namespace NoLonger

abbrev refl (i : Input) : NoLonger i := ⟨i, Nat.le_refl _⟩

variable {i : Input}

abbrev trans (left : NoLonger i) (last : NoLonger left.1) : NoLonger i :=
  ⟨last.1, Nat.le_trans last.2 left.2⟩

abbrev transLt (left : NoLonger i) (last : Shorter left.1) : Shorter i :=
  ⟨last.1, Nat.lt_of_lt_of_le last.2 left.2⟩

end NoLonger

def ofString (s : String) : Input := ⟨s.toList, ⟨1, 0⟩⟩

def isGap (c : Char) : Bool := c == ' ' || c == '\t' || c == '\n' || c == '\r'

def dropWhile (p : Char → Bool) (i : Input) : Input :=
  go i.position i.text
where
  go (position : Position) : List Char → Input
    | [] => ⟨[], position⟩
    | c :: cs => if p c then go (position.after c) cs else ⟨c :: cs, position⟩

theorem length_dropWhile_go (p : Char → Bool) (position : Position) (cs : List Char) :
    (dropWhile.go p position cs).text.length ≤ cs.length := by
  induction cs generalizing position with
  | nil => simp [dropWhile.go]
  | cons c cs ih =>
    unfold dropWhile.go
    split
    · exact Nat.le_succ_of_le (ih _)
    · exact Nat.le_refl _

theorem length_dropWhile (p : Char → Bool) (i : Input) :
    (i.dropWhile p).text.length ≤ i.text.length :=
  length_dropWhile_go p _ _

def skipGap (i : Input) : NoLonger i := ⟨i.dropWhile isGap, length_dropWhile _ _⟩

def here (i : Input) (fault : Fault) : Error := ⟨fault, i.position⟩

/-- The fault of the byte that comes next; at the end of the text, of the end. -/
def ahead (i : Input) (fault : Fault) : Error :=
  match i.text with
  | [] => i.here fault
  | c :: _ => ⟨fault, i.position.into c⟩

def atEnd (i : Input) (what : Construct) : Error := i.ahead (.endOf what)

/-- The input after a closing bracket, if that is what comes next behind blanks. A fault of a whole
object or list stands here. -/
def pastClosing (bracket : Char) (i : Input) : Input :=
  let j := i.dropWhile isGap
  match j.text with
  | c :: cs => if c = bracket then ⟨cs, j.position.after c⟩ else j
  | [] => j

end Input

end Reckon.Json
