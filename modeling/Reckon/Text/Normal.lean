import Reckon.Power
import Reckon.Text.CombiningClass
import Reckon.Text.Decomposition

/-! Canonical composition (NFC): characters are decomposed, marks put in order of their class, and
starters composed again with the marks that are not blocked from them. -/
namespace Reckon.Text

namespace Hangul

def syllableBase : Nat := 0xAC00
def leadBase : Nat := 0x1100
def vowelBase : Nat := 0x1161
def tailBase : Nat := 0x11A7
def leadCount : Nat := 19
def vowelCount : Nat := 21
def tailCount : Nat := 28

def syllableCount : Nat := leadCount * vowelCount * tailCount

def letters? (code : Nat) : Option (List Char) :=
  if syllableBase ≤ code ∧ code < syllableBase + syllableCount then
    let index := code - syllableBase
    let block := index / tailCount
    let stem := [Char.ofNat (leadBase + block / vowelCount),
      Char.ofNat (vowelBase + block % vowelCount)]
    some (if index % tailCount = 0 then stem
      else stem ++ [Char.ofNat (tailBase + index % tailCount)])
  else none

/-- A lead with a vowel, or a syllable without a tail with a tail. -/
def compose? (a b : Nat) : Option Char :=
  if leadBase ≤ a ∧ a < leadBase + leadCount ∧ vowelBase ≤ b ∧ b < vowelBase + vowelCount then
    some (Char.ofNat
      (syllableBase + ((a - leadBase) * vowelCount + (b - vowelBase)) * tailCount))
  else if syllableBase ≤ a ∧ a < syllableBase + syllableCount ∧ (a - syllableBase) % tailCount = 0
      ∧ tailBase < b ∧ b < tailBase + tailCount then
    some (Char.ofNat (a + (b - tailBase)))
  else none

end Hangul

namespace Decomposition

def part (entry place : Nat) : Nat := entry / 0x100000 ^ place % 0x100000

/-- One step of decomposition, by the tables. -/
def parts? (code : Nat) : Option (List Nat) :=
  let pairIn (pages : List Page) : Option (List Nat) :=
    ((Page.entriesFor pages code).find? (part · 2 == code)).map (fun e => [part e 1, part e 0])
  let single : Option (List Nat) :=
    ((Page.entriesFor singleton code).find? (part · 1 == code)).map (fun e => [part e 0])
  (pairIn composed).or ((pairIn excluded).or single)

/-- All steps, as far as `fuel` goes. -/
def expand : Nat → Nat → List Nat
  | 0, code => [code]
  | fuel + 1, code =>
    match parts? code with
    | some codes => codes.flatMap (expand fuel)
    | none => [code]

def composed? (a b : Nat) : Option Nat :=
  composed.findSome? fun page =>
    (page.entries.find? (fun e => part e 1 == a && part e 0 == b)).map (part · 2)

end Decomposition

/-- Code points below the first combining mark: a text of these is in normal form already. -/
def firstMark : Nat := 0x300

/-- The full canonical decomposition of a character. No chain of the tables is longer than three. -/
def decompose (c : Char) : List Char :=
  if c.toNat < 0xC0 then [c]
  else
    match Hangul.letters? c.toNat with
    | some cs => cs
    | none => (Decomposition.expand 4 c.toNat).map Char.ofNat

/-- Puts a character in front of a text in canonical order: a mark goes behind those of lower
class that directly follow it. -/
def insertMark (c : Char) : List Char → List Char
  | [] => [c]
  | d :: ds =>
    if combiningClass c ≠ 0 ∧ combiningClass d ≠ 0 ∧ combiningClass d < combiningClass c then
      d :: insertMark c ds
    else c :: d :: ds

/-- Marks between two starters sorted by class; equal classes keep their order. -/
def canonicalOrder (cs : List Char) : List Char := cs.foldr insertMark []

def composePair? (a b : Char) : Option Char :=
  if b.toNat < firstMark then none
  else
    (Hangul.compose? a.toNat b.toNat).or
      ((Decomposition.composed? a.toNat b.toNat).map Char.ofNat)

/-- Composes what follows with `starter`. `kept` holds, last first, the marks that stay apart;
`top` is the class of its last one, and a character of that class or below is blocked by it. -/
def composeAfter (starter : Char) (kept : List Char) (top : Nat) : List Char → List Char
  | [] => starter :: kept.reverse
  | c :: cs =>
    let k := combiningClass c
    let joined := if kept ≠ [] ∧ k ≤ top then none else composePair? starter c
    match joined with
    | some p => composeAfter p kept top cs
    | none =>
      if k = 0 then starter :: (kept.reverse ++ composeAfter c [] 0 cs)
      else composeAfter starter (c :: kept) k cs

/-- Composes a decomposed text in canonical order; marks in front of the first starter stay. -/
def composeAll : List Char → List Char
  | [] => []
  | c :: cs => if combiningClass c = 0 then composeAfter c [] 0 cs else c :: composeAll cs

def normalize (cs : List Char) : List Char :=
  if cs.all (·.toNat < firstMark) then cs
  else composeAll (canonicalOrder (cs.flatMap decompose))

theorem normalize_of_below {cs : List Char} (h : ∀ c ∈ cs, c.toNat < firstMark) :
    normalize cs = cs := by
  simp [normalize]
  intro c hc hl
  exact absurd (h c hc) (by omega)

end Reckon.Text
