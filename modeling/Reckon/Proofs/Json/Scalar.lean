import Reckon.Json.Decode
import Reckon.Json.Writer
import Reckon.Proofs.Digits

/-! JSON strings, words and natural numbers are read back as they were written. -/
namespace Reckon.Json
open Decimal

/-- The decoder takes a front of the text, wherever it stands, for the value, and leaves the rest. -/
def Decodes {α : Type} (decode : Decoder α) (front rest : List Char) (a : α) : Prop :=
  ∀ i : Input, i.text = front ++ rest →
    ∃ left : Input.Shorter i, left.1.text = rest ∧ decode i = .ok (a, left)

namespace Input

theorem skipGap_of_head {i : Input} {c : Char} {cs : List Char} (h : i.text = c :: cs)
    (hc : isGap c = false) : i.skipGap = .refl i := by
  obtain ⟨text, p⟩ := i
  cases h
  refine Subtype.ext ?_
  simp [skipGap, dropWhile, dropWhile.go, hc]

theorem isGap_of_isDigit {c : Char} (h : isDigit c = true) : isGap c = false := by
  rw [Bool.eq_false_iff]
  intro hgap
  simp only [isGap, Bool.or_eq_true, beq_iff_eq] at hgap
  obtain ((rfl | rfl) | rfl) | rfl := hgap <;> revert h <;> decide

end Input

section strings
variable {rest front : List Char}

private theorem decodes_shortEscape {c d : Char} (h : shortEscape? c = some d) :
    Decodes readEscape [c] rest d := by
  rintro ⟨_, p⟩ ⟨⟩
  refine ⟨.past rfl (p.after c), rfl, ?_⟩
  unfold readEscape
  dsimp only [List.cons_append, List.nil_append]
  rw [h]

theorem hexValue?_hexDigit {n : Nat} (h : n < 16) : hexValue? (hexDigit n) = some n := by
  revert h
  revert n
  decide

private theorem decodes_hex {a b c d : Char} {a' b' c' d' : Nat} (ha : hexValue? a = some a')
    (hb : hexValue? b = some b') (hc : hexValue? c = some c') (hd : hexValue? d = some d') :
    Decodes readHex [a, b, c, d] rest (((a' * 16 + b') * 16 + c') * 16 + d') := by
  rintro ⟨_, p⟩ ⟨⟩
  have hlength : rest.length < (a :: b :: c :: d :: rest).length := by
    simp only [List.length_cons]
    omega
  refine ⟨⟨⟨rest, (((p.after a).after b).after c).after d⟩, hlength⟩, rfl, ?_⟩
  show readHex ⟨a :: b :: c :: d :: rest, p⟩ = _
  unfold readHex
  dsimp only
  rw [ha, hb, hc, hd]

/-- A control character is escaped by its number. -/
theorem decodes_controlEscape {c : Char} (h : c.toNat < 0x20) :
    Decodes readEscape ['u', '0', '0', hexDigit (c.toNat / 16), hexDigit (c.toNat % 16)] rest c := by
  rintro ⟨_, p⟩ ⟨⟩
  have hzero : hexValue? '0' = some 0 := rfl
  have hhigh := hexValue?_hexDigit (n := c.toNat / 16) (by omega)
  have hlow := hexValue?_hexDigit (n := c.toNat % 16) (by omega)
  have hnumber : ((0 * 16 + 0) * 16 + c.toNat / 16) * 16 + c.toNat % 16 = c.toNat := by omega
  have hplain : isLowSurrogate c.toNat = false ∧ isHighSurrogate c.toNat = false := by
    simp only [isLowSurrogate, isHighSurrogate, Bool.and_eq_false_iff, decide_eq_false_iff_not]
    omega
  have hhex : Decodes readHex _ rest _ := decodes_hex hzero hzero hhigh hlow
  obtain ⟨j, hj, hhex⟩ := hhex ⟨_, p.after 'u'⟩ rfl
  rw [hnumber] at hhex
  refine ⟨Input.Shorter.trans (.past rfl (p.after 'u')) j, hj, ?_⟩
  unfold readEscape
  dsimp only [List.cons_append, List.nil_append] at hhex ⊢
  simp [shortEscape?, readUnicode, hhex, hplain, bind, Except.bind, Char.ofNat_toNat, pure,
    Except.pure]

private theorem decodes_chars_nil (read : List Char) :
    Decodes (readChars read) ['"'] rest (String.ofList read.reverse) := by
  rintro ⟨_, p⟩ ⟨⟩
  refine ⟨.past rfl (p.after '"'), rfl, ?_⟩
  rw [readChars]
  rfl

private theorem decodes_chars_escaped {read escape : List Char} {c : Char} {s : String}
    (hescape : Decodes readEscape escape (front ++ rest) c)
    (h : Decodes (readChars (c :: read)) front rest s) :
    Decodes (readChars read) ('\\' :: (escape ++ front)) rest s := by
  rintro ⟨text, p⟩ htext
  obtain rfl : text = '\\' :: (escape ++ (front ++ rest)) := by simpa using htext
  obtain ⟨j, hj, hescape⟩ := hescape ⟨_, p.after '\\'⟩ rfl
  obtain ⟨k, hk, h⟩ := h j.1 hj
  refine ⟨Input.Shorter.trans (.past rfl (p.after '\\')) (j.trans k), hk, ?_⟩
  rw [readChars]
  simp [hescape, h, bind, Except.bind, pure, Except.pure]

private theorem decodes_chars_plain {read : List Char} {c : Char} {s : String} (hquote : c ≠ '"')
    (hbackslash : c ≠ '\\') (hcontrol : isControl c = false)
    (h : Decodes (readChars (c :: read)) front rest s) :
    Decodes (readChars read) (c :: front) rest s := by
  rintro ⟨_, p⟩ ⟨⟩
  obtain ⟨j, hj, h⟩ := h ⟨_, p.after c⟩ rfl
  refine ⟨Input.Shorter.trans (.past rfl (p.after c)) j, hj, ?_⟩
  rw [readChars]
  simp [hquote, hbackslash, hcontrol, h, bind, Except.bind, pure, Except.pure]

/-- Every character is read as it was, escaped or not. -/
theorem decodes_chars_writeChar {read : List Char} {c : Char} {s : String}
    (h : Decodes (readChars (c :: read)) front rest s) :
    Decodes (readChars read) (writeChar c ++ front) rest s := by
  have hshort {e : Char} (he : shortEscape? e = some c) :
      Decodes (readChars read) (['\\', e] ++ front) rest s :=
    decodes_chars_escaped (decodes_shortEscape he) h
  unfold writeChar
  split
  · next hc => exact hshort (e := '"') (by rw [hc]; rfl)
  split
  · next hc => exact hshort (e := '\\') (by rw [hc]; rfl)
  split
  · next hc => exact hshort (e := 'b') (by rw [hc]; rfl)
  split
  · next hc => exact hshort (e := 'f') (by rw [hc]; rfl)
  split
  · next hc => exact hshort (e := 'n') (by rw [hc]; rfl)
  split
  · next hc => exact hshort (e := 'r') (by rw [hc]; rfl)
  split
  · next hc => exact hshort (e := 't') (by rw [hc]; rfl)
  split
  · next hc => exact decodes_chars_escaped (decodes_controlEscape hc) h
  · next hquote hbackslash _ _ _ _ _ hcontrol =>
    exact decodes_chars_plain hquote hbackslash (decide_eq_false hcontrol) h

theorem decodes_chars (cs read rest : List Char) :
    Decodes (readChars read) (cs.flatMap writeChar ++ ['"']) rest
      (String.ofList (read.reverse ++ cs)) := by
  induction cs generalizing read with
  | nil =>
    rw [List.append_nil]
    exact decodes_chars_nil read
  | cons c cs ih =>
    have h := decodes_chars_writeChar (ih (c :: read))
    rwa [List.reverse_cons, List.append_assoc, ← List.append_assoc, ← List.flatMap_cons] at h

theorem decodes_readString (s : String) (rest : List Char) :
    Decodes readString (s.toList.flatMap writeChar ++ ['"']) rest s := by
  have h := decodes_chars s.toList [] rest
  rwa [List.reverse_nil, List.nil_append, String.ofList_toList] at h

theorem toList_writeString (s : String) :
    (writeString s).toList = '"' :: (s.toList.flatMap writeChar ++ ['"']) :=
  String.toList_ofList

theorem decodes_readScalar_string (s : String) (rest : List Char) :
    Decodes readScalar (writeString s).toList rest (.string s) := by
  rintro ⟨text, p⟩ htext
  obtain rfl : text = '"' :: (s.toList.flatMap writeChar ++ ['"'] ++ rest) := by
    rw [toList_writeString] at htext
    exact htext
  obtain ⟨j, hj, h⟩ := decodes_readString s rest ⟨_, p.after '"'⟩ rfl
  refine ⟨Input.Shorter.trans (.past rfl (p.after '"')) j, hj, ?_⟩
  unfold readScalar
  simp [h, bind, Except.bind, pure, Except.pure]

end strings

/-- A scalar that starts so is read, and converted. -/
theorem decodes_scalarOf {α : Type} {wanted : String} {starts : Char → Bool}
    {convert : Json → Except Fault α} {c : Char} {cs rest : List Char} {v : Json} {a : α}
    (hgap : Input.isGap c = false) (hstarts : starts c = true)
    (hread : Decodes readScalar (c :: cs) rest v) (hconvert : convert v = .ok a) :
    Decodes (scalarOf wanted starts convert) (c :: cs) rest a := by
  intro i htext
  obtain ⟨j, hj, h⟩ := hread i htext
  refine ⟨j, hj, ?_⟩
  have hskip := Input.skipGap_of_head htext hgap
  unfold scalarOf
  dsimp only
  rw [hskip]
  simp only [htext, List.cons_append, hstarts, if_true, h, hconvert, bind, Except.bind, pure,
    Except.pure]

theorem decodes_decodeString (s : String) (rest : List Char) :
    Decodes decodeString (writeString s).toList rest s := by
  have hread := decodes_readScalar_string s rest
  rw [toList_writeString] at hread ⊢
  exact decodes_scalarOf rfl rfl hread rfl

/-- What is not absent does not start as `null` does. -/
theorem decodes_decodeOption {α : Type} {decode : Decoder α} {c : Char} {cs rest : List Char}
    {a : α} (hgap : Input.isGap c = false) (hnull : c ≠ 'n') (h : Decodes decode (c :: cs) rest a) :
    Decodes (decodeOption decode) (c :: cs) rest (some a) := by
  intro i htext
  obtain ⟨j, hj, h⟩ := h i htext
  refine ⟨j, hj, ?_⟩
  have hskip := Input.skipGap_of_head htext hgap
  unfold decodeOption
  dsimp only
  rw [hskip]
  dsimp only
  split
  · next hopen =>
    rw [htext] at hopen
    cases hopen
    exact absurd rfl hnull
  · rw [h]
    rfl

theorem decodes_optionalString (s : String) (rest : List Char) :
    Decodes (decodeOption decodeString) (writeString s).toList rest (some s) := by
  have h := decodes_decodeString s rest
  rw [toList_writeString] at h ⊢
  exact decodes_decodeOption rfl (by decide) h

theorem readWord_eq {letters rest : List Char} {i : Input} (h : i.text = letters ++ rest) :
    ∃ left : Input.NoLonger i, left.1.text = rest ∧ readWord letters i = .ok left := by
  induction letters generalizing i with
  | nil => exact ⟨.refl i, h, rfl⟩
  | cons c cs ih =>
    obtain ⟨_, p⟩ := i
    cases h
    obtain ⟨left, hleft, h⟩ := @ih ⟨cs ++ rest, p.after c⟩ rfl
    refine ⟨⟨left.1, Nat.le_succ_of_le left.2⟩, hleft, ?_⟩
    show readWord (c :: cs) ⟨c :: (cs ++ rest), p⟩ = _
    rw [readWord, if_pos rfl, h]
    rfl

theorem decodes_decodeBool (b : Bool) (rest : List Char) :
    Decodes decodeBool (writeBool b).toList rest b := by
  have hread : Decodes readScalar (writeBool b).toList rest (.bool b) := by
    rintro ⟨text, p⟩ htext
    cases b with
    | true =>
      obtain rfl : text = 't' :: (['r', 'u', 'e'] ++ rest) := htext
      obtain ⟨left, hleft, h⟩ := @readWord_eq _ rest ⟨_, p.after 't'⟩ rfl
      refine ⟨Input.Shorter.transLe (.past rfl (p.after 't')) left, hleft, ?_⟩
      unfold readScalar
      dsimp only
      rw [if_neg (by decide), if_pos rfl, h]
      rfl
    | false =>
      obtain rfl : text = 'f' :: (['a', 'l', 's', 'e'] ++ rest) := htext
      obtain ⟨left, hleft, h⟩ := @readWord_eq _ rest ⟨_, p.after 'f'⟩ rfl
      refine ⟨Input.Shorter.transLe (.past rfl (p.after 'f')) left, hleft, ?_⟩
      unfold readScalar
      dsimp only
      rw [if_neg (by decide), if_neg (by decide), if_pos rfl, h]
      rfl
  cases b <;> exact decodes_scalarOf rfl rfl hread rfl

/-- What follows a member of a record. -/
def Ends (rest : List Char) : Prop := ∃ c cs, rest = c :: cs ∧ (c = ',' ∨ c = '\x7d')

section naturals
variable {rest : List Char}

theorem Ends.isDigit_eq_false (h : Ends rest) : ∀ c ∈ rest.head?, isDigit c = false := by
  obtain ⟨c, cs, rfl, rfl | rfl⟩ := h <;> (rintro _ ⟨⟩; rfl)

/-- As long as they fit into a word, digits are collected to their value. -/
theorem collect_eq {n : Nat} {ds : List Char}
    (h : 10 ^ ds.length * n + digitsValue ds < wordLimit) :
    collect n ds = (10 ^ ds.length * n + digitsValue ds, 0) := by
  induction ds generalizing n with
  | nil => simp [collect, digitsValue]
  | cons d ds ih =>
    have hvalue : 10 ^ (d :: ds).length * n + digitsValue (d :: ds) =
        10 ^ ds.length * (10 * n + digitValue d) + digitsValue ds := by
      have hcons := digitsValue_append [d] ds
      rw [List.singleton_append] at hcons
      rw [hcons, show digitsValue [d] = digitValue d by simp [digitsValue], List.length_cons,
        Nat.pow_succ, Nat.mul_add, Nat.mul_assoc, Nat.add_assoc]
    rw [hvalue] at h ⊢
    have hle : 10 * n + digitValue d ≤ 10 ^ ds.length * (10 * n + digitValue d) :=
      Nat.le_mul_of_pos_left _ (Nat.pow_pos (by decide))
    rw [collect, if_pos (by omega)]
    exact ih h

theorem text_dropWhile (p : Char → Bool) (i : Input) :
    (i.dropWhile p).text = i.text.dropWhile p := by
  obtain ⟨text, position⟩ := i
  show (Input.dropWhile.go p position text).text = text.dropWhile p
  induction text generalizing position with
  | nil => rfl
  | cons c cs ih =>
    rw [Input.dropWhile.go, List.dropWhile_cons]
    split
    · exact ih _
    · rfl

theorem nextDigits_eq {i : Input} {ds : List Char} (hds : Lexeme.Digits ds)
    (hrest : ∀ c ∈ rest.head?, isDigit c = false) (h : i.text = ds ++ rest) :
    nextDigits i = ds ∧ (skipDigits i).1.text = rest := by
  constructor
  · rw [nextDigits, h, takeWhile_of_stop hds hrest]
  · show (i.dropWhile isDigit).text = rest
    rw [text_dropWhile, h, dropWhile_of_stop hds hrest]

theorem readAfterWhole_eq (hends : Ends rest) (word : Nat) {i : Input} (h : i.text = rest) :
    readAfterWhole false word 0 i = .ok (.integer word, .refl i) := by
  obtain ⟨text, p⟩ := i
  obtain ⟨c, cs, rfl, rfl | rfl⟩ := hends <;> cases h <;> rfl

theorem decodes_readMagnitude (hends : Ends rest) {n : Nat} (hn : n < wordLimit) :
    Decodes (readMagnitude false) n.repr.toList rest (.integer n) := by
  have hdigits := Lexeme.digits_repr n
  have hvalue := digitsValue_repr n
  have hstop := hends.isDigit_eq_false
  have hwhole := Lexeme.whole_repr n
  generalize n.repr.toList = ds at *
  rintro ⟨text, p⟩ htext
  subst hvalue
  obtain ⟨d, ds, rfl⟩ := List.exists_cons_of_ne_nil hwhole.ne_nil
  cases htext
  let j : Input.Shorter ⟨d :: (ds ++ rest), p⟩ := .past rfl (p.after d)
  obtain ⟨hnext, hskip⟩ := nextDigits_eq (i := j.1)
    (fun c hc => hdigits c (List.mem_cons_of_mem _ hc)) hstop rfl
  obtain ⟨rfl, rfl⟩ | ⟨hne, hd, -⟩ := Lexeme.whole_cons_iff.mp hwhole
  · have hafter := readAfterWhole_eq hends 0 (i := j.1) rfl
    refine ⟨j, rfl, ?_⟩
    show readMagnitude false ⟨'0' :: ([] ++ rest), p⟩ = _
    unfold readMagnitude
    dsimp only
    rw [if_pos rfl, if_neg (not_not_intro hnext), hafter]
    rfl
  · have hafter := readAfterWhole_eq hends (digitsValue (d :: ds)) hskip
    have hcons := digitsValue_append [d] ds
    rw [List.singleton_append, show digitsValue [d] = digitValue d by simp [digitsValue]] at hcons
    have hcollect := @collect_eq (digitValue d) ds (by rwa [← hcons])
    refine ⟨j.transLe (skipDigits j.1), hskip, ?_⟩
    show readMagnitude false ⟨d :: (ds ++ rest), p⟩ = _
    unfold readMagnitude
    dsimp only
    rw [if_neg hne, if_pos hd, hnext, hcollect, ← hcons]
    dsimp only
    rw [hafter]
    rfl

theorem decodes_readScalar_natural (hends : Ends rest) {n : Nat} (hn : n < wordLimit) :
    Decodes readScalar n.repr.toList rest (.integer n) := by
  intro i htext
  obtain ⟨left, hleft, h⟩ := decodes_readMagnitude hends hn i htext
  refine ⟨left, hleft, ?_⟩
  have hdigits := Lexeme.digits_repr n
  obtain ⟨d, ds, hd⟩ := List.exists_cons_of_ne_nil (Lexeme.whole_repr n).ne_nil
  have hdigit : isDigit d = true := hdigits d (by rw [hd]; exact List.mem_cons_self ..)
  have hother (c : Char) (hc : isDigit c = false) : d ≠ c := by
    rintro rfl
    rw [hdigit] at hc
    cases hc
  obtain ⟨text, p⟩ := i
  rw [hd] at htext
  cases htext
  have hn := hother 'n' rfl
  have ht := hother 't' rfl
  have hf := hother 'f' rfl
  have hquote := hother '"' rfl
  have hminus := hother '-' rfl
  unfold readScalar
  simp [hn, ht, hf, hquote, hminus, hdigit]
  exact h

/-- A natural number is read back before the end of a member. -/
theorem decodes_decodeNatural (hends : Ends rest) {n bound : Nat} (hn : n < bound)
    (hbound : bound ≤ wordLimit) (wanted : String) :
    Decodes (decodeNatural bound wanted) n.repr.toList rest n := by
  have hread := decodes_readScalar_natural hends (Nat.lt_of_lt_of_le hn hbound)
  have hdigits := Lexeme.digits_repr n
  obtain ⟨d, ds, hd⟩ := List.exists_cons_of_ne_nil (Lexeme.whole_repr n).ne_nil
  rw [hd] at hread hdigits ⊢
  have hdigit : isDigit d = true := hdigits d (List.mem_cons_self ..)
  refine decodes_scalarOf (Input.isGap_of_isDigit hdigit) (by simp [hdigit]) hread ?_
  simp [naturalOf, hn]

end naturals

end Reckon.Json
