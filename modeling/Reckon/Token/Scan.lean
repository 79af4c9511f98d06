import Reckon.Failure
import Reckon.Text.Blank
import Reckon.Text.Bytes
import Reckon.Text.Quoted
import Reckon.Token

/-! Source text cut into tokens, longest first. A scan is fail-fast: the first character or numeral
that fits no token ends it. -/
namespace Reckon

namespace Token

/-- Blanks between tokens: space, tab, carriage return and line feed. -/
def isGap (c : Char) : Bool := c == ' ' || c == '\t' || c == '\r' || c == '\n'

def isLetter (c : Char) : Bool := ('a' ≤ c && c ≤ 'z') || ('A' ≤ c && c ≤ 'Z')

def isNameChar (c : Char) : Bool := isLetter c || Decimal.isDigit c || c == '_'

def isMantissaChar (c : Char) : Bool := Decimal.isDigit c || c == '.'

def startsWithDigit : List Char → Bool
  | c :: _ => Decimal.isDigit c
  | [] => false

def splitSignChar : List Char → List Char × List Char
  | '+' :: cs => (['+'], cs)
  | '-' :: cs => (['-'], cs)
  | cs => ([], cs)

/-- An exponent at the front and the rest. Without a digit there is no exponent. -/
def splitExponent : List Char → List Char × List Char
  | [] => ([], [])
  | e :: cs =>
    let (sign, ds) := splitSignChar cs
    if (e = 'e' ∨ e = 'E') ∧ startsWithDigit ds then
      (e :: (sign ++ ds.takeWhile Decimal.isDigit), ds.dropWhile Decimal.isDigit)
    else ([], e :: cs)

/-- Digits without a needless leading zero, then an optional point and digits; or a point and at
least one digit. -/
def isMantissa (cs : List Char) : Bool :=
  let whole := cs.takeWhile (· != '.')
  let fraction := (cs.dropWhile (· != '.')).drop 1
  let wholeFits :=
    match whole with
    | [] => !fraction.isEmpty
    | ['0'] => true
    | c :: ds => c != '0' && Decimal.isDigit c && ds.all Decimal.isDigit
  wholeFits && fraction.all Decimal.isDigit

inductive Form where
  /-- A run of digits and points, and the exponent after it. -/
  | numeral (mantissa exponent : List Char)
  | name (chars : List Char)
  | symbol (s : Symbol)
  /-- A character that starts no token. -/
  | stray (c : Char)

def Form.chars : Form → List Char
  | .numeral mantissa exponent => mantissa ++ exponent
  | .name chars => chars
  | .symbol s => s.text.toList
  | .stray c => [c]

/-- The symbol that starts with a character, and what follows it. A dot is told apart from a
numeral before. -/
def symbolAt? (c : Char) (cs : List Char) : Option (Symbol × List Char) :=
  match c, cs with
  | '+', '+' :: cs => some (.plusPlus, cs)
  | '-', '-' :: cs => some (.minusMinus, cs)
  | '+', cs => some (.plus, cs)
  | '-', cs => some (.minus, cs)
  | '*', cs => some (.star, cs)
  | '/', cs => some (.slash, cs)
  | '%', cs => some (.percent, cs)
  | '(', cs => some (.openParen, cs)
  | ')', cs => some (.closeParen, cs)
  | '.', cs => some (.dot, cs)
  | ',', cs => some (.comma, cs)
  | _, _ => none

def munch (c : Char) (cs : List Char) : Form × List Char :=
  if Decimal.isDigit c || (c == '.' && startsWithDigit cs) then
    let (exponent, rest) := splitExponent (cs.dropWhile isMantissaChar)
    (.numeral (c :: cs.takeWhile isMantissaChar) exponent, rest)
  else if isLetter c then
    (.name (c :: cs.takeWhile isNameChar), cs.dropWhile isNameChar)
  else
    match symbolAt? c cs with
    | some (s, rest) => (.symbol s, rest)
    | none => (.stray c, cs)

def ofForm (start : Nat) (form : Form) : Except Failure Token :=
  let lexeme := String.ofList form.chars
  let span : Span := ⟨start, start + Text.byteLength form.chars⟩
  match form with
  | .numeral mantissa exponent =>
    match Decimal.Numeral.ofChars? (mantissa ++ exponent) with
    | some n =>
      if isMantissa mantissa then .ok ⟨.number (n.toFloat false), lexeme, span⟩
      else .error ⟨.malformed (some lexeme), span⟩
    | none => .error ⟨.malformed (some lexeme), span⟩
  | .name _ => .ok ⟨.identifier lexeme, lexeme, span⟩
  | .symbol s => .ok ⟨.symbol s, lexeme, span⟩
  | .stray c => .error ⟨.malformed (some ("character " ++ Text.quotedChar c)), span⟩

theorem splitSignChar_append (cs : List Char) :
    (splitSignChar cs).1 ++ (splitSignChar cs).2 = cs := by
  unfold splitSignChar
  split <;> rfl

theorem splitExponent_append (cs : List Char) :
    (splitExponent cs).1 ++ (splitExponent cs).2 = cs := by
  cases cs with
  | nil => rfl
  | cons e cs =>
    simp only [splitExponent]
    split
    · rw [List.cons_append, List.append_assoc, List.takeWhile_append_dropWhile,
        splitSignChar_append]
    · rfl

theorem symbolAt?_append {c : Char} {cs rest : List Char} {s : Symbol}
    (h : symbolAt? c cs = some (s, rest)) : s.text.toList ++ rest = c :: cs := by
  unfold symbolAt? at h
  split at h <;> simp only [Option.some.injEq, Prod.mk.injEq, reduceCtorEq] at h <;>
    obtain ⟨rfl, rfl⟩ := h <;> simp [Symbol.text]

/-- No character is lost between a lexeme and what follows it. -/
theorem munch_append (c : Char) (cs : List Char) :
    (munch c cs).1.chars ++ (munch c cs).2 = c :: cs := by
  unfold munch
  split
  · simp [Form.chars, splitExponent_append]
  · split
    · simp [Form.chars]
    · split
      · exact symbolAt?_append ‹_›
      · rfl

theorem chars_munch_ne_nil (c : Char) (cs : List Char) : (munch c cs).1.chars ≠ [] := by
  unfold munch
  split
  · simp [Form.chars]
  · split
    · simp [Form.chars]
    · split
      · next s _ _ => cases s <;> simp [Form.chars, Symbol.text]
      · simp [Form.chars]

/-- A lexeme takes its first character at least. -/
theorem length_munch (c : Char) (cs : List Char) : (munch c cs).2.length ≤ cs.length := by
  have h := congrArg List.length (munch_append c cs)
  have hpos := List.length_pos_iff.mpr (chars_munch_ne_nil c cs)
  simp only [List.length_append, List.length_cons] at h
  omega

end Token

/-- A scan under way: what is left of a source, from `offset` on. -/
structure Scan where
  source : List Char
  rest : List Char
  offset : Nat
  /-- A failure ends the scan. -/
  failed : Bool

namespace Scan

def start (source : List Char) : Scan := ⟨source, source, 0, false⟩

def restart (s : Scan) : Scan := start s.source

def next (s : Scan) : Option (Except Failure Token) × Scan :=
  if s.failed then (none, s)
  else
    let gap := s.rest.takeWhile Token.isGap
    let position := s.offset + Text.byteLength gap
    match s.rest.dropWhile Token.isGap with
    | [] => (none, { s with rest := [], offset := position })
    | c :: cs =>
      let (form, rest) := Token.munch c cs
      let result := Token.ofForm position form
      (some result, { s with
        rest := rest
        offset := position + Text.byteLength form.chars
        failed := !result.isOk })

def take : Nat → Scan → List (Except Failure Token) × Scan
  | 0, s => ([], s)
  | n + 1, s =>
    match s.next with
    | (none, s) => ([], s)
    | (some item, s) =>
      let (items, s) := take n s
      (item :: items, s)

/-- All items that are left: at most one for each character. -/
def drain (s : Scan) : List (Except Failure Token) × Scan := s.take s.rest.length

end Scan

/-- The tokens of a text that starts at `offset`, or the first failure. -/
def tokenizeFrom (offset : Nat) (text : List Char) : Except Failure (List Token) :=
  let start := offset + Text.byteLength (text.takeWhile Token.isGap)
  match _h : text.dropWhile Token.isGap with
  | [] => .ok []
  | c :: cs =>
    let piece := Token.munch c cs
    match Token.ofForm start piece.1 with
    | .error f => .error f
    | .ok t => (tokenizeFrom (start + Text.byteLength piece.1.chars) piece.2).map (t :: ·)
termination_by text.length
decreasing_by
  have hm := Token.length_munch c cs
  have hs := (List.dropWhile_sublist Token.isGap (l := text)).length_le
  simp only [_h, List.length_cons] at hs
  omega

def tokenize (source : List Char) : Except Failure (List Token) := tokenizeFrom 0 source

end Reckon
