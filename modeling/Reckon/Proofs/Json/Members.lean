import Reckon.Json.Reader
import Reckon.Proofs.Reading

/-! The members of an object as a text writes them. The table that is read from the text holds the
last one under each name. -/
namespace Reckon.Json

/-- The members of an object in the order in which they stand, with each repeated name. `first` says
that none has been read. -/
def writtenMembers (depth : Nat) (first : Bool) (i : Input) :
    Except Error (List (String × Json) × Input.Shorter i) := do
  let (key?, ⟨j, hj⟩) ← nextKey first i
  match key? with
  | none => return ([], ⟨j, hj⟩)
  | some key =>
    let ⟨k, hk⟩ := Input.Shorter.trans ⟨j, hj⟩ (← readColon j)
    let (v, last) ← readValue depth k
    let ⟨l, hl⟩ := Input.Shorter.trans ⟨k, hk⟩ last
    let (ms, m) ← writtenMembers depth false l
    return ((key, v) :: ms, Input.Shorter.trans ⟨l, hl⟩ m)
termination_by i.text.length

/-- The members of the object that a text is, as they are written. -/
def members? (text : String) : Option (List (String × Json)) :=
  let i := (Input.ofString text).skipGap.1
  match i.text with
  | '\x7b' :: cs => Except.toOption do
    let (ms, ⟨j, _⟩) ← writtenMembers (depthLimit - 1) true ⟨cs, i.position.byte⟩
    finish j
    return ms
  | _ => none

/-- Members are filed one after the other, each in place of one before it under its name. -/
theorem readMembers_eq (depth : Nat) (first : Bool) (read : List (String × Json)) (i : Input) :
    readMembers depth first read i = (writtenMembers depth first i).map fun (ms, j) =>
      (ms.foldl (fun table m => NameTable.insert m.1 m.2 table) read, j) := by
  induction hn : i.text.length using Nat.strongRecOn generalizing i first read with
  | ind n ih =>
    rw [readMembers, writtenMembers]
    obtain ⟨fault⟩ | ⟨_ | key, j⟩ := nextKey first i
    · rfl
    · rfl
    simp only [bind, Except.bind]
    obtain ⟨fault⟩ | k := readColon j.1
    · rfl
    dsimp only
    obtain ⟨fault⟩ | ⟨v, l⟩ := readValue depth (j.trans k).1
    · rfl
    have hlt : l.1.text.length < n := hn ▸ ((j.trans k).trans l).2
    dsimp only
    rw [ih _ hlt _ _ _ rfl]
    obtain ⟨fault⟩ | ⟨ms, m⟩ := writtenMembers depth false l.1 <;> rfl

def IsScalar : Json → Prop
  | .array _ | .object _ => False
  | _ => True

/-- Whatever value is read has a property. -/
structure Yields {α : Type} (P : Json → Prop) (r : Except Error (Json × α)) : Prop where
  of_ok : ∀ {v : Json} {a : α}, r = .ok (v, a) → P v

namespace Yields
variable {α β : Type} {P : Json → Prop}

theorem error (e : Error) : @Yields α P (.error e) := by
  constructor
  intro v a h
  cases h

theorem ok {v : Json} (h : P v) (a : α) : Yields P (.ok (v, a)) := by
  constructor
  intro v a h
  cases h
  assumption

theorem map {r : Except Error (Json × α)} (h : Yields P r) (g : Json × α → β) :
    Yields P (do let x ← r; return (x.1, g x)) := by
  obtain ⟨e⟩ | ⟨v, a⟩ := r
  · exact error e
  · exact ok (h.of_ok rfl) _

end Yields

section scalar

private theorem yields_floatOf {α : Type} (negative : Bool) (word : Nat) (e : Int) (i : Input)
    (a : α) :
    Yields IsScalar (do let v ← floatOf negative word e i; return (v, a)) := by
  unfold floatOf
  cases applyPower (Binary64.ofNat word) e
  · exact .error _
  · exact .ok trivial _

private theorem yields_readExponent (negative : Bool) (word : Nat) (e : Int) (i : Input) :
    Yields IsScalar (readExponent negative word e i) := by
  unfold readExponent
  dsimp only
  split
  · exact .error _
  split
  · split
    · exact yields_floatOf ..
    · split
      · exact .error _
      · exact .ok trivial _
  · exact .error _

private theorem yields_readScale (negative : Bool) (word : Nat) (e : Int) (i : Input) :
    Yields IsScalar (readScale negative word e i) := by
  unfold readScale
  split
  · dsimp only
    split
    · exact (yields_readExponent ..).map _
    · exact yields_floatOf ..
  · exact yields_floatOf ..

private theorem yields_readFraction (negative : Bool) (word : Nat) (e : Int) (i : Input) :
    Yields IsScalar (readFraction negative word e i) := by
  unfold readFraction
  dsimp only
  split
  · exact .error _
  · exact (yields_readScale ..).map _

theorem isScalar_integerOf (negative : Bool) (word : Nat) : IsScalar (integerOf negative word) := by
  unfold integerOf
  split
  · split <;> trivial
  · trivial

private theorem yields_readAfterWhole (negative : Bool) (word unread : Nat) (i : Input) :
    Yields IsScalar (readAfterWhole negative word unread i) := by
  unfold readAfterWhole
  split
  · dsimp only
    exact (yields_readFraction ..).map _
  · exact yields_readScale ..
  · exact yields_readScale ..
  · split
    · exact .ok (isScalar_integerOf ..) _
    · exact yields_readScale ..

private theorem yields_readMagnitude (negative : Bool) (i : Input) :
    Yields IsScalar (readMagnitude negative i) := by
  unfold readMagnitude
  split
  · exact .error _
  dsimp only
  split
  · split
    · exact .error _
    · exact (yields_readAfterWhole ..).map _
  · split
    · exact (yields_readAfterWhole ..).map _
    · exact .error _

private theorem yields_readWord {v : Json} (hv : IsScalar v) (letters : List Char) (i : Input)
    {β : Type} (g : Input.NoLonger i → β) :
    Yields IsScalar (do return (v, g (← readWord letters i))) := by
  cases readWord letters i
  · exact .error _
  · exact .ok hv _

theorem yields_readString (i : Input) {β : Type} (g : Input.Shorter i → β) :
    Yields IsScalar (do let (s, j) ← readString i; return (.string s, g j)) := by
  cases readString i
  · exact .error _
  · exact .ok trivial _

theorem yields_readScalar (i : Input) : Yields IsScalar (readScalar i) := by
  unfold readScalar
  split
  · exact .error _
  dsimp only
  repeat' split
  · exact @yields_readWord .null trivial ..
  · exact @yields_readWord (.bool true) trivial ..
  · exact @yields_readWord (.bool false) trivial ..
  · exact yields_readString ..
  · exact (yields_readMagnitude ..).map _
  · exact yields_readMagnitude ..
  · exact .error _

end scalar

section document
variable {depth : Nat} {i : Input}

theorem readValue_object {cs : List Char} (h : i.skipGap.1.text = '\x7b' :: cs) :
    (readValue (depth + 1) i).map (fun r => (r.1, r.2.1)) =
      (readMembers depth true [] ⟨cs, i.skipGap.1.position.byte⟩).map fun r =>
        (.object r.1, r.2.1) := by
  unfold readValue
  dsimp only
  split
  · next hopen _ =>
    rw [h] at hopen
    cases hopen
  · next hopen hdepth =>
    rw [h] at hopen
    cases hopen
    cases hdepth
    cases readMembers depth true [] ⟨cs, i.skipGap.1.position.byte⟩ <;> rfl
  · next hdepth => cases hdepth
  · next hdepth => cases hdepth
  · next _ hother _ _ => exact (hother _ _ h rfl).elim

/-- Behind a brace the written members are read, and make up the object. -/
theorem readValue_eq_ok_iff {cs : List Char} (h : i.skipGap.1.text = '\x7b' :: cs) {v : Json}
    {j : Input} :
    (∃ last, readValue (depth + 1) i = .ok (v, last) ∧ last.1 = j) ↔
      ∃ ms last, writtenMembers depth true ⟨cs, i.skipGap.1.position.byte⟩ = .ok (ms, last) ∧
        last.1 = j ∧ v = .object (NameTable.ofMembers ms) := by
  have hread := @readValue_object depth _ _ h
  rw [readMembers_eq] at hread
  generalize readValue (depth + 1) i = r at hread ⊢
  generalize writtenMembers depth true ⟨cs, i.skipGap.1.position.byte⟩ = written at hread ⊢
  obtain ⟨fault⟩ | ⟨v', last⟩ := r <;> obtain ⟨fault'⟩ | ⟨ms, last'⟩ := written
  · constructor
    · rintro ⟨_, ⟨⟩, -⟩
    · rintro ⟨_, _, ⟨⟩, -⟩
  · cases hread
  · cases hread
  · obtain ⟨rfl, hlast⟩ := Prod.mk.inj (Except.ok.inj hread)
    constructor
    · rintro ⟨_, ⟨⟩, rfl⟩
      exact ⟨ms, last', rfl, hlast.symm, rfl⟩
    · rintro ⟨_, _, ⟨⟩, rfl, rfl⟩
      exact ⟨last, rfl, hlast⟩

/-- Only a brace starts an object. -/
theorem exists_of_readValue_object {members : List (String × Json)} {j : Input.Shorter i}
    (h : readValue depth i = .ok (.object members, j)) : ∃ cs, i.skipGap.1.text = '\x7b' :: cs := by
  unfold readValue at h
  dsimp only at h
  split at h
  · obtain ⟨⟨elements, k⟩, -, h⟩ := exists_of_bind_eq_ok h
    cases h
  · next hopen => exact ⟨_, hopen⟩
  · cases h
  · cases h
  · obtain ⟨⟨v, k⟩, hscalar, h⟩ := exists_of_bind_eq_ok h
    cases h
    cases (yields_readScalar _).of_ok hscalar

end document

section ofString
variable {text : String}

theorem members?_eq_some_iff {ms : List (String × Json)} : members? text = some ms ↔
    ∃ cs k, (Input.ofString text).skipGap.1.text = '\x7b' :: cs ∧
      writtenMembers 126 true ⟨cs, (Input.ofString text).skipGap.1.position.byte⟩ = .ok (ms, k) ∧
        finish k.1 = .ok () := by
  have hoption {α : Type} {r : Except Error α} {a : α} : r.toOption = some a ↔ r = .ok a := by
    cases r <;> simp [Except.toOption]
  unfold members?
  dsimp only
  split
  · next cs htext =>
    rw [hoption, htext]
    constructor
    · intro h
      obtain ⟨⟨ms', k⟩, hmembers, h⟩ := exists_of_bind_eq_ok h
      obtain ⟨⟨⟩, hfinish, h⟩ := exists_of_bind_eq_ok h
      cases h
      exact ⟨cs, k, rfl, hmembers, hfinish⟩
    · rintro ⟨cs', k, hcs, hmembers, hfinish⟩
      cases hcs
      show writtenMembers 126 true _ >>= _ = _
      rw [hmembers]
      show finish k.1 >>= _ = _
      rw [hfinish]
      rfl
  · next hother =>
    constructor
    · intro h
      cases h
    · rintro ⟨cs, k, htext, -⟩
      exact absurd htext (hother cs)

/-- A text is an object exactly if its members can be read, and the last member of each name is
that of the object. -/
theorem ofString_eq_object_iff {table : List (String × Json)} :
    Json.ofString text = .ok (.object table) ↔
      ∃ ms, members? text = some ms ∧ table = NameTable.ofMembers ms := by
  simp only [members?_eq_some_iff]
  constructor
  · intro h
    obtain ⟨⟨v, j⟩, hvalue, h⟩ := exists_of_bind_eq_ok h
    obtain ⟨⟨⟩, hfinish, h⟩ := exists_of_bind_eq_ok h
    cases h
    obtain ⟨cs, htext⟩ := exists_of_readValue_object hvalue
    obtain ⟨ms, k, hmembers, hk, htable⟩ := (readValue_eq_ok_iff htext).mp ⟨j, hvalue, rfl⟩
    exact ⟨ms, ⟨cs, k, htext, hmembers, hk ▸ hfinish⟩, Json.object.inj htable⟩
  · rintro ⟨ms, ⟨cs, k, htext, hmembers, hfinish⟩, rfl⟩
    obtain ⟨j, hvalue, hj⟩ := (readValue_eq_ok_iff htext).mpr ⟨ms, k, hmembers, rfl, rfl⟩
    show readValue (126 + 1) (Input.ofString text) >>= _ = _
    rw [hvalue]
    show finish j.1 >>= _ = _
    rw [hj, hfinish]
    rfl

end ofString

end Reckon.Json
