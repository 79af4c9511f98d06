import Reckon.Proofs.Slice
import Reckon.Proofs.Spacing

/-! The scan byte by byte. A byte is looked at alone, and a byte of a wide character looks like no
character that a token has; so the bytes are passed over one at a time, and yet every stretch that is
cut out begins and ends between characters. -/
namespace Reckon

namespace Text

def bytes (text : List Char) : List UInt8 := text.flatMap String.utf8EncodeChar

/-- The byte at an offset, as the character of that number. -/
def charAt? (text : List Char) (offset : Nat) : Option Char :=
  (bytes text)[offset]?.map Char.ofUInt8

@[simp] theorem bytes_cons (c : Char) (text : List Char) :
    bytes (c :: text) = String.utf8EncodeChar c ++ bytes text := List.flatMap_cons

@[simp] theorem bytes_append (a b : List Char) : bytes (a ++ b) = bytes a ++ bytes b :=
  List.flatMap_append

@[simp] theorem length_bytes (text : List Char) : (bytes text).length = byteLength text := by
  induction text with
  | nil => rfl
  | cons c text ih =>
    rw [bytes_cons, List.length_append, String.length_utf8EncodeChar, ih, byteLength_cons]

theorem lt_of_charAt? {text : List Char} {offset : Nat} {c : Char} (h : charAt? text offset = some c) :
    offset < byteLength text := by
  obtain ⟨b, hb, -⟩ := Option.map_eq_some_iff.mp h
  rw [← length_bytes]
  exact (List.getElem?_eq_some_iff.mp hb).1

theorem charAt?_byteLength (text : List Char) : charAt? text (byteLength text) = none := by
  rw [charAt?, ← length_bytes, List.getElem?_eq_none (Nat.le_refl _)]
  rfl

theorem utf8Size_of_lt {c : Char} (h : c.toNat < 0x80) : c.utf8Size = 1 :=
  Char.utf8Size_eq_one_iff.mpr (UInt32.le_iff_toNat_le.mpr (Nat.le_of_lt_succ h))

/-- The first byte of a wide character is none of ASCII. -/
theorem exists_utf8EncodeChar {c : Char} (h : 0x80 ≤ c.toNat) :
    ∃ b bs, String.utf8EncodeChar c = b :: bs ∧ 0x80 ≤ b.toNat := by
  have hgt : ¬c.val.toNat ≤ 127 := Nat.not_le_of_lt h
  have hlead {n : Nat} (hlow : 0x80 ≤ n) (hhigh : n < 256) : 0x80 ≤ (UInt8.ofNat n).toNat := by
    rwa [UInt8.toNat_ofNat_of_lt' hhigh]
  simp only [String.utf8EncodeChar, if_neg hgt]
  split
  · exact ⟨_, _, rfl, hlead (by omega) (by omega)⟩
  · split
    · exact ⟨_, _, rfl, hlead (by omega) (by omega)⟩
    · exact ⟨_, _, rfl, hlead (by omega) (by omega)⟩

variable (before rest : List Char)

theorem charAt?_append :
    charAt? (before ++ rest) (byteLength before) = (bytes rest).head?.map Char.ofUInt8 := by
  rw [charAt?, bytes_append, ← length_bytes, List.getElem?_append_right (Nat.le_refl _),
    Nat.sub_self, ← List.head?_eq_getElem?]

variable {c : Char}

theorem charAt?_of_lt (h : c.toNat < 0x80) :
    charAt? (before ++ c :: rest) (byteLength before) = some c := by
  have hbyte : Char.ofUInt8 c.val.toUInt8 = c := by
    apply Char.toNat_inj.mp
    change c.val.toUInt8.toUInt32.toNat = c.val.toNat
    rw [UInt8.toNat_toUInt32, UInt32.toNat_toUInt8]
    exact Nat.mod_eq_of_lt (Nat.lt_trans h (by decide))
  rw [charAt?_append, bytes_cons, String.utf8EncodeChar_eq_singleton (utf8Size_of_lt h),
    List.singleton_append, List.head?_cons, Option.map_some, hbyte]

theorem charAt?_of_le (h : 0x80 ≤ c.toNat) :
    ∃ d, charAt? (before ++ c :: rest) (byteLength before) = some d ∧ 0x80 ≤ d.toNat := by
  obtain ⟨b, bs, hc, hb⟩ := exists_utf8EncodeChar h
  refine ⟨Char.ofUInt8 b, ?_, ?_⟩
  · rw [charAt?_append, bytes_cons, hc]
    rfl
  · change 0x80 ≤ b.toUInt32.toNat
    rwa [UInt8.toNat_toUInt32]

/-- A test that only ASCII passes comes out on a byte as on the character there. -/
theorem any_charAt? {p : Char → Bool} (hp : ∀ c, p c = true → c.toNat < 0x80) :
    (charAt? (before ++ rest) (byteLength before)).any p = rest.head?.any p := by
  cases rest with
  | nil =>
    rw [List.append_nil, charAt?_byteLength]
    rfl
  | cons c rest =>
    by_cases hc : c.toNat < 0x80
    · rw [charAt?_of_lt before rest hc]
      rfl
    · obtain ⟨d, hd, hwide⟩ := charAt?_of_le before rest (Nat.le_of_not_lt hc)
      rw [hd]
      have hpc : p c = false := Bool.eq_false_iff.mpr fun h => hc (hp c h)
      have hpd : p d = false := Bool.eq_false_iff.mpr fun h => Nat.not_lt_of_le hwide (hp d h)
      simp [hpc, hpd]

end Text

/-- A scan that looks at bytes and keeps no more than its place. -/
structure ByteScan where
  source : List Char
  offset : Nat
  /-- A failure ends the scan. -/
  failed : Bool

theorem Token.isStray_of_le {c : Char} (h : 0x80 ≤ c.toNat) : IsStray c := by
  have hwritten := not_isWritten_of_le h
  simp only [isWritten, isNameChar, Bool.or_eq_false_iff, List.contains_eq_mem,
    decide_eq_false_iff_not] at hwritten
  obtain ⟨⟨-, ⟨hletter, hdigit⟩, -⟩, hsymbol⟩ := hwritten
  exact ⟨hdigit, hletter, hsymbol⟩

namespace ByteScan
open Text Token Lexeme
variable (source : List Char)

def skipWhile (p : Char → Bool) (offset : Nat) : Nat :=
  if _h : (charAt? source offset).any p then skipWhile p (offset + 1) else offset
termination_by byteLength source - offset
decreasing_by
  cases hc : charAt? source offset with
  | none => simp [hc] at _h
  | some c =>
    have := lt_of_charAt? hc
    omega

def isExponentMark (c : Char) : Bool := c == 'e' || c == 'E'

def isSignChar (c : Char) : Bool := c == '+' || c == '-'

/-- Behind the exponent at an offset. Without a digit there is no exponent. -/
def exponentEnd (offset : Nat) : Nat :=
  if (charAt? source offset).any isExponentMark then
    let signed := (charAt? source (offset + 1)).any isSignChar
    let digits := offset + if signed then 2 else 1
    if (charAt? source digits).any Decimal.isDigit then skipWhile source Decimal.isDigit digits
    else offset
  else offset

/-- The token on a stretch, and the offset behind it. -/
def tokenOn (kind : TokenKind) (start stop : Nat) : Option (Except Failure Token × Nat) := do
  let lexeme ← Span.slice ⟨start, stop⟩ source
  return (.ok ⟨kind, String.ofList lexeme, ⟨start, stop⟩⟩, stop)

def numeral (start : Nat) : Option (Except Failure Token × Nat) := do
  let mantissaEnd := skipWhile source isMantissaChar (start + 1)
  let stop := exponentEnd source mantissaEnd
  let lexeme ← Span.slice ⟨start, stop⟩ source
  let mantissa ← Span.slice ⟨start, mantissaEnd⟩ source
  let malformed : Failure := ⟨.malformed (some (String.ofList lexeme)), ⟨start, stop⟩⟩
  if isMantissa mantissa then
    match Decimal.Numeral.ofChars? lexeme with
    | some n =>
      return (.ok ⟨.number (n.toFloat false), String.ofList lexeme, ⟨start, stop⟩⟩, stop)
    | none => return (.error malformed, stop)
  else return (.error malformed, stop)

def name (start : Nat) : Option (Except Failure Token × Nat) := do
  let stop := skipWhile source isNameChar (start + 1)
  let chars ← Span.slice ⟨start, stop⟩ source
  tokenOn source (.identifier (String.ofList chars)) start stop

def symbol? (c : Char) (offset : Nat) : Option (Symbol × Nat) :=
  let doubled := (charAt? source offset).any (· == c)
  match c with
  | '+' => some (if doubled then (.plusPlus, offset + 1) else (.plus, offset))
  | '-' => some (if doubled then (.minusMinus, offset + 1) else (.minus, offset))
  | '*' => some (.star, offset)
  | '/' => some (.slash, offset)
  | '%' => some (.percent, offset)
  | '(' => some (.openParen, offset)
  | ')' => some (.closeParen, offset)
  | '.' => some (.dot, offset)
  | ',' => some (.comma, offset)
  | _ => none

/-- The whole character at an offset, which starts no token. -/
def stray (start : Nat) : Option (Except Failure Token × Nat) := do
  let rest ← dropBytes start source
  let c := rest.head?.getD '\uFFFD'
  let stop := start + c.utf8Size
  return (.error ⟨.malformed (some ("character " ++ quotedChar c)), ⟨start, stop⟩⟩, stop)

/-- The token or failure at an offset, and the offset behind it. There is none where a stretch that
is cut out leaves the source or splits a character. -/
def scan (start : Nat) : Option (Except Failure Token × Nat) :=
  match charAt? source start with
  | none => some (.error ⟨.malformed none, Span.point start⟩, start)
  | some c =>
    if Decimal.isDigit c || (c == '.' && (charAt? source (start + 1)).any Decimal.isDigit) then
      numeral source start
    else if isLetter c then name source start
    else
      match symbol? source c (start + 1) with
      | some (s, stop) => tokenOn source (.symbol s) start stop
      | none => stray source start

def next (s : ByteScan) : Option (Option (Except Failure Token) × ByteScan) := do
  if s.failed then return (none, s)
  let start := skipWhile s.source isGap s.offset
  if byteLength s.source ≤ start then return (none, { s with offset := start })
  let (result, stop) ← scan s.source start
  return (some result, { s with offset := stop, failed := !result.isOk })

variable {source} (before : List Char)

private theorem lt_of_isExponentMark {c : Char} (h : isExponentMark c = true) : c.toNat < 0x80 := by
  simp only [isExponentMark, Bool.or_eq_true, beq_iff_eq] at h
  obtain rfl | rfl := h <;> decide

private theorem lt_of_isSignChar {c : Char} (h : isSignChar c = true) : c.toNat < 0x80 := by
  simp only [isSignChar, Bool.or_eq_true, beq_iff_eq] at h
  obtain rfl | rfl := h <;> decide

private theorem lt_of_isMantissaChar {c : Char} (h : isMantissaChar c = true) : c.toNat < 0x80 := by
  simp only [isMantissaChar, Bool.or_eq_true, beq_iff_eq] at h
  obtain h | rfl := h
  · exact lt_of_isDigit h
  · decide

theorem byteLength_concat {c : Char} (hc : c.toNat < 0x80) :
    byteLength (before ++ [c]) = byteLength before + 1 := by
  simp [utf8Size_of_lt hc]

section
variable {p : Char → Bool} (hp : ∀ c, p c = true → c.toNat < 0x80)
include hp

/-- One byte is one character further on where that is of ASCII. -/
theorem any_charAt?_succ {c : Char} (hc : c.toNat < 0x80) (cs : List Char) :
    (charAt? (before ++ c :: cs) (byteLength before + 1)).any p = cs.head?.any p := by
  rw [← byteLength_concat before hc, List.append_cons, any_charAt? _ _ hp]

theorem skipWhile_append (text : List Char) :
    skipWhile (before ++ text) p (byteLength before) =
      byteLength (before ++ text.takeWhile p) := by
  induction text generalizing before with
  | nil =>
    rw [skipWhile, dif_neg (by rw [any_charAt? _ _ hp]; nofun), List.takeWhile_nil,
      List.append_nil]
  | cons c text ih =>
    have hany := any_charAt? before (c :: text) hp
    by_cases hc : p c = true
    · rw [skipWhile, dif_pos (by rw [hany]; exact hc), ← byteLength_concat before (hp c hc),
        List.append_cons, ih, List.takeWhile_cons_of_pos hc, ← List.append_cons]
    · rw [skipWhile, dif_neg (by rw [hany]; exact hc), List.takeWhile_cons_of_neg hc,
        List.append_nil]

theorem skipWhile_succ {c : Char} (hc : c.toNat < 0x80) (cs : List Char) :
    skipWhile (before ++ c :: cs) p (byteLength before + 1) =
      byteLength (before ++ c :: cs.takeWhile p) := by
  rw [← byteLength_concat before hc, List.append_cons, skipWhile_append _ hp, ← List.append_cons]

end

theorem byteLength_sign (cs : List Char) :
    byteLength (splitSignChar cs).1 = if cs.head?.any isSignChar then 1 else 0 := by
  unfold splitSignChar
  split
  · rfl
  · rfl
  · next hplus hminus =>
    cases cs with
    | nil => rfl
    | cons c cs =>
      have hc : ¬isSignChar c = true := by
        simp only [isSignChar, Bool.or_eq_true, beq_iff_eq]
        rintro (rfl | rfl)
        · exact hplus cs rfl
        · exact hminus cs rfl
      rw [List.head?_cons, Option.any_some, if_neg hc]
      rfl

theorem startsWithDigit_eq (cs : List Char) :
    startsWithDigit cs = cs.head?.any Decimal.isDigit := by
  cases cs <;> rfl

private theorem exponentEnd_append (text : List Char) :
    exponentEnd (before ++ text) (byteLength before) =
      byteLength (before ++ (splitExponent text).1) := by
  rw [exponentEnd, any_charAt? _ _ fun _ => lt_of_isExponentMark]
  cases text with
  | nil => simp [splitExponent]
  | cons e cs =>
    rw [List.head?_cons, Option.any_some]
    by_cases he : isExponentMark e = true
    · have hlt := lt_of_isExponentMark he
      have hmark : e = 'e' ∨ e = 'E' := by simpa [isExponentMark] using he
      have hdigit : ∀ c : Char, Decimal.isDigit c = true → c.toNat < 0x80 := fun _ => lt_of_isDigit
      -- the digits, if there are any, stand behind the mark and its sign
      have hdigits : byteLength before + (if cs.head?.any isSignChar then 2 else 1) =
          byteLength (before ++ e :: (splitSignChar cs).1) := by
        rw [List.append_cons, byteLength_append, byteLength_concat before hlt, byteLength_sign]
        split <;> rfl
      have htext : before ++ e :: cs =
          (before ++ e :: (splitSignChar cs).1) ++ (splitSignChar cs).2 := by
        rw [List.append_assoc, List.cons_append, splitSignChar_append]
      rw [if_pos he, any_charAt?_succ before (fun _ => lt_of_isSignChar) hlt]
      dsimp only
      rw [hdigits, htext, any_charAt? _ _ hdigit, ← startsWithDigit_eq,
        skipWhile_append _ hdigit, splitExponent]
      by_cases hstarts : startsWithDigit (splitSignChar cs).2 = true
      · simp [hstarts, hmark]
      · simp [hstarts]
    · have hmark : ¬(e = 'e' ∨ e = 'E') := by simpa [isExponentMark] using he
      rw [if_neg he, splitExponent]
      simp [hmark]

theorem slice_between (before piece rest : List Char) :
    Span.slice ⟨byteLength before, byteLength (before ++ piece)⟩ (before ++ (piece ++ rest)) =
      some piece := by
  rw [byteLength_append, Span.slice_append]

theorem tokenOn_append (kind : TokenKind) (lexeme rest : List Char) :
    tokenOn (before ++ (lexeme ++ rest)) kind (byteLength before) (byteLength (before ++ lexeme)) =
      some (.ok ⟨kind, String.ofList lexeme,
        ⟨byteLength before, byteLength before + byteLength lexeme⟩⟩,
        byteLength (before ++ lexeme)) := by
  rw [tokenOn, slice_between, byteLength_append]
  rfl

private theorem numeral_append {c : Char} (hc : c.toNat < 0x80) (cs : List Char) :
    let mantissa := c :: cs.takeWhile isMantissaChar
    let exponent := (splitExponent (cs.dropWhile isMantissaChar)).1
    numeral (before ++ c :: cs) (byteLength before) =
      some (ofForm (byteLength before) (.numeral mantissa exponent),
        byteLength (before ++ (mantissa ++ exponent))) := by
  intro mantissa exponent
  let rest := (splitExponent (cs.dropWhile isMantissaChar)).2
  have hexponent : exponent ++ rest = cs.dropWhile isMantissaChar := splitExponent_append _
  have hcs : c :: cs = mantissa ++ (exponent ++ rest) := by
    rw [hexponent, List.cons_append, List.takeWhile_append_dropWhile]
  have hmantissa : skipWhile (before ++ c :: cs) isMantissaChar (byteLength before + 1) =
      byteLength (before ++ mantissa) :=
    skipWhile_succ before (fun _ => lt_of_isMantissaChar) hc cs
  have hstop : exponentEnd (before ++ c :: cs) (byteLength (before ++ mantissa)) =
      byteLength (before ++ (mantissa ++ exponent)) := by
    rw [hcs, hexponent, ← List.append_assoc, exponentEnd_append, List.append_assoc]
  have hslice := slice_between before mantissa (exponent ++ rest)
  have hlexeme := slice_between before (mantissa ++ exponent) rest
  rw [List.append_assoc] at hlexeme
  rw [numeral, hmantissa]
  dsimp only
  rw [hstop, hcs, hslice, hlexeme]
  simp only [ofForm, Form.chars, Option.bind_eq_bind, Option.bind_some, byteLength_append]
  cases Decimal.Numeral.ofChars? (mantissa ++ exponent) with
  | none => split <;> rfl
  | some n => split <;> rfl

private theorem name_append {c : Char} (hc : c.toNat < 0x80) (cs : List Char) :
    let chars := c :: cs.takeWhile isNameChar
    name (before ++ c :: cs) (byteLength before) =
      some (ofForm (byteLength before) (.name chars), byteLength (before ++ chars)) := by
  intro chars
  have hcs : c :: cs = chars ++ cs.dropWhile isNameChar := by
    rw [List.cons_append, List.takeWhile_append_dropWhile]
  have hstop : skipWhile (before ++ c :: cs) isNameChar (byteLength before + 1) =
      byteLength (before ++ chars) :=
    skipWhile_succ before (fun _ => lt_of_isNameChar) hc cs
  rw [name, hstop, hcs, slice_between]
  exact tokenOn_append ..

theorem symbol?_eq_none {c : Char} (h : c ∉ "+-*/%().,".toList) (source : List Char)
    (offset : Nat) : symbol? source c offset = none := by
  simp only [symbol?]
  split <;> first | rfl | exact absurd (by decide) h

private theorem symbol?_append {c : Char} (hc : c.toNat < 0x80) (cs : List Char) :
    symbol? (before ++ c :: cs) c (byteLength before + 1) =
      (symbolAt? c cs).map fun p => (p.1, byteLength (before ++ p.1.text.toList)) := by
  have hsame : ∀ d : Char, (d == c) = true → d.toNat < 0x80 := by
    simp only [beq_iff_eq]
    rintro d rfl
    exact hc
  have hdoubled : (charAt? (before ++ c :: cs) (byteLength before + 1)).any (· == c) =
      cs.head?.any (· == c) := any_charAt?_succ before hsame hc cs
  simp only [symbol?, hdoubled]
  split
  case h_1 =>
    cases cs with
    | nil => simp [symbolAt?, Symbol.text, Char.utf8Size]
    | cons d cs => by_cases hd : d = '+' <;> simp [symbolAt?, Symbol.text, Char.utf8Size, hd]
  case h_2 =>
    cases cs with
    | nil => simp [symbolAt?, Symbol.text, Char.utf8Size]
    | cons d cs => by_cases hd : d = '-' <;> simp [symbolAt?, Symbol.text, Char.utf8Size, hd]
  case h_10 =>
    rw [symbolAt?_eq_none_iff.mpr (by simp_all)]
    rfl
  all_goals simp [symbolAt?, Symbol.text, Char.utf8Size]

theorem stray_append (c : Char) (cs : List Char) :
    stray (before ++ c :: cs) (byteLength before) =
      some (ofForm (byteLength before) (.stray c), byteLength (before ++ [c])) := by
  rw [stray, dropBytes_append]
  simp [ofForm, Form.chars]

theorem scan_of_isStray {source : List Char} {start : Nat} {c : Char}
    (hc : charAt? source start = some c) (h : IsStray c) :
    scan source start = stray source start := by
  obtain ⟨hdigit, hletter, hsymbol⟩ := h
  have hpoint : c ≠ '.' := by
    rintro rfl
    exact hsymbol (by decide)
  rw [scan, hc]
  dsimp only
  rw [if_neg (by simp [hdigit, hpoint]), if_neg (by simp [hletter]), symbol?_eq_none hsymbol]

/-- The bytes are scanned as the characters are. -/
theorem scan_append (c : Char) (cs : List Char) :
    scan (before ++ c :: cs) (byteLength before) =
      some (ofForm (byteLength before) (munch c cs).1,
        byteLength (before ++ (munch c cs).1.chars)) := by
  by_cases hc : c.toNat < 0x80
  · have hdot : (charAt? (before ++ c :: cs) (byteLength before + 1)).any Decimal.isDigit =
        startsWithDigit cs := by
      rw [any_charAt?_succ before (fun _ => lt_of_isDigit) hc, startsWithDigit_eq]
    rw [scan, charAt?_of_lt before cs hc]
    dsimp only
    rw [hdot, munch]
    split
    · exact numeral_append before hc cs
    · split
      · exact name_append before hc cs
      · have hsymbol := symbol?_append before hc cs
        cases hs : symbolAt? c cs with
        | none =>
          rw [hs] at hsymbol
          rw [hsymbol]
          exact stray_append before c cs
        | some p =>
          obtain ⟨s, rest⟩ := p
          rw [hs] at hsymbol
          rw [hsymbol, ← symbolAt?_append hs]
          exact tokenOn_append ..
  · have hwide := Nat.le_of_not_lt hc
    obtain ⟨d, hd, hd'⟩ := charAt?_of_le before cs hwide
    rw [scan_of_isStray hd (isStray_of_le hd'), stray_append, munch_stray (isStray_of_le hwide)]
    rfl

end ByteScan

end Reckon
