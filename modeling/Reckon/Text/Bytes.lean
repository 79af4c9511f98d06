/-! Byte positions in a text: a text is a list of characters, a position counts UTF-8 bytes. -/
namespace Reckon.Text

/-- Bytes that the text takes in UTF-8. -/
def byteLength : List Char → Nat
  | [] => 0
  | c :: cs => c.utf8Size + byteLength cs

/-- What follows the first `n` bytes; `none` if no character ends there. -/
def dropBytes : Nat → List Char → Option (List Char)
  | 0, cs => some cs
  | _ + 1, [] => none
  | n + 1, c :: cs =>
    if c.utf8Size ≤ n + 1 then dropBytes (n + 1 - c.utf8Size) cs else none

/-- The first `n` bytes; `none` if no character ends there. -/
def takeBytes : Nat → List Char → Option (List Char)
  | 0, _ => some []
  | _ + 1, [] => none
  | n + 1, c :: cs =>
    if c.utf8Size ≤ n + 1 then (takeBytes (n + 1 - c.utf8Size) cs).map (c :: ·) else none

@[simp] theorem byteLength_nil : byteLength [] = 0 := rfl

@[simp] theorem byteLength_cons (c : Char) (cs : List Char) :
    byteLength (c :: cs) = c.utf8Size + byteLength cs := rfl

@[simp] theorem byteLength_append (a b : List Char) :
    byteLength (a ++ b) = byteLength a + byteLength b := by
  induction a with
  | nil => simp
  | cons c a ih => simp [ih, Nat.add_assoc]

theorem length_le_byteLength (cs : List Char) : cs.length ≤ byteLength cs := by
  induction cs with
  | nil => simp
  | cons c cs ih =>
    have := c.utf8Size_pos
    simp only [byteLength_cons, List.length_cons]
    omega

theorem byteLength_le (cs : List Char) : byteLength cs ≤ 4 * cs.length := by
  induction cs with
  | nil => simp
  | cons c cs ih =>
    have := c.utf8Size_le_four
    simp only [byteLength_cons, List.length_cons]
    omega

@[simp] theorem dropBytes_append (a b : List Char) :
    dropBytes (byteLength a) (a ++ b) = some b := by
  induction a with
  | nil => cases b <;> rfl
  | cons c a ih =>
    obtain ⟨k, hk⟩ := Nat.exists_eq_add_of_lt c.utf8Size_pos
    have hn : byteLength (c :: a) = (k + byteLength a) + 1 := by simp; omega
    rw [hn, List.cons_append, dropBytes, if_pos (by omega)]
    rw [show k + byteLength a + 1 - c.utf8Size = byteLength a by omega, ih]

@[simp] theorem takeBytes_append (a b : List Char) :
    takeBytes (byteLength a) (a ++ b) = some a := by
  induction a with
  | nil => cases b <;> rfl
  | cons c a ih =>
    obtain ⟨k, hk⟩ := Nat.exists_eq_add_of_lt c.utf8Size_pos
    have hn : byteLength (c :: a) = (k + byteLength a) + 1 := by simp; omega
    rw [hn, List.cons_append, takeBytes, if_pos (by omega)]
    rw [show k + byteLength a + 1 - c.utf8Size = byteLength a by omega, ih]
    rfl

end Reckon.Text
