import Reckon.Proofs.Json.Scalar
import Reckon.Proofs.Reading

/-! Records are read back member by member: what the decoder of each field gives for the text of its
value makes up the fields of the whole. -/
namespace Reckon.Json
open Decimal

/-- The members of a record behind its opening brace, and the brace behind them. `first` says that
none has been written. -/
def membersText (first : Bool) : List (String × Option String) → List Char
  | [] => ['\x7d']
  | (_, none) :: ms => membersText first ms
  | (name, some value) :: ms =>
    (if first then [] else [',']) ++
      ((writeString name).toList ++ ':' :: (value.toList ++ membersText false ms))

theorem membersText_eq_intercalate (fields : List (String × Option String)) :
    let present := fields.filterMap fun (name, text?) => text?.map (writeString name ++ ":" ++ ·)
    membersText true fields = (",".intercalate present).toList ++ ['\x7d'] ∧
      membersText false fields =
        (if present = [] then [] else ',' :: (",".intercalate present).toList) ++ ['\x7d'] := by
  intro present
  induction fields with
  | nil => exact ⟨rfl, rfl⟩
  | cons field ms ih =>
    obtain ⟨name, _ | value⟩ := field
    · exact ih
    · have hbehind : membersText true ((name, some value) :: ms) =
          (",".intercalate present).toList ++ ['\x7d'] := by
        rw [membersText, ih.2]
        simp only [present, List.filterMap_cons, Option.map_some]
        generalize List.filterMap _ ms = later
        cases later <;> simp
      refine ⟨hbehind, ?_⟩
      rw [if_neg (by simp [present]), List.cons_append, ← hbehind]
      rfl

theorem toList_writeRecord (fields : List (String × Option String)) :
    (writeRecord fields).toList = '\x7b' :: membersText true fields := by
  have h := (membersText_eq_intercalate fields).1
  rw [h, writeRecord]
  simp

theorem ends_membersText (ms : List (String × Option String)) (rest : List Char) :
    Ends (membersText false ms ++ rest) := by
  induction ms with
  | nil => exact ⟨_, _, rfl, .inr rfl⟩
  | cons m ms ih =>
    obtain ⟨name, _ | value⟩ := m
    · exact ih
    · exact ⟨_, _, rfl, .inl rfl⟩

section
variable {rest : List Char}

theorem decodes_nextKey_none (first : Bool) : Decodes (nextKey first) ['\x7d'] rest none := by
  rintro ⟨_, p⟩ ⟨⟩
  have hskip := Input.skipGap_of_head (i := ⟨'\x7d' :: rest, p⟩) rfl rfl
  refine ⟨.past rfl (p.after '\x7d'), rfl, ?_⟩
  show nextKey first ⟨'\x7d' :: rest, p⟩ = _
  unfold nextKey
  rw [hskip]
  rfl

theorem decodes_nextKey_some (first : Bool) (name : String) :
    Decodes (nextKey first) ((if first then [] else [',']) ++ (writeString name).toList) rest
      (some name) := by
  rintro ⟨text, p⟩ htext
  rw [toList_writeString] at htext
  cases first with
  | true =>
    obtain rfl : text = '"' :: (name.toList.flatMap writeChar ++ ['"'] ++ rest) := htext
    obtain ⟨j, hj, h⟩ := decodes_readString name rest ⟨_, p.after '"'⟩ rfl
    have hskip := Input.skipGap_of_head
      (i := ⟨'"' :: (name.toList.flatMap writeChar ++ ['"'] ++ rest), p⟩) rfl rfl
    refine ⟨Input.Shorter.trans (.past rfl (p.after '"')) j, hj, ?_⟩
    unfold nextKey
    rw [hskip]
    dsimp only
    rw [if_neg (by decide), if_pos rfl, if_pos rfl, h]
    rfl
  | false =>
    obtain rfl : text = ',' :: '"' :: (name.toList.flatMap writeChar ++ ['"'] ++ rest) := htext
    obtain ⟨j, hj, h⟩ := decodes_readString name rest ⟨_, (p.after ',').after '"'⟩ rfl
    have hskip := Input.skipGap_of_head
      (i := ⟨',' :: '"' :: (name.toList.flatMap writeChar ++ ['"'] ++ rest), p⟩) rfl rfl
    have hskip' := Input.skipGap_of_head
      (i := ⟨'"' :: (name.toList.flatMap writeChar ++ ['"'] ++ rest), p.after ','⟩) rfl rfl
    refine ⟨Input.Shorter.trans (Input.Shorter.trans (.past rfl (p.after ','))
      (.past rfl ((p.after ',').after '"'))) j, hj, ?_⟩
    unfold nextKey
    rw [hskip]
    dsimp only
    rw [if_neg (by decide), if_neg (by decide), if_pos rfl, hskip']
    dsimp only
    rw [if_pos rfl, h]
    rfl

theorem readColon_eq {i : Input} (h : i.text = ':' :: rest) :
    ∃ left : Input.Shorter i, left.1.text = rest ∧ readColon i = .ok left := by
  obtain ⟨_, p⟩ := i
  cases h
  have hskip := Input.skipGap_of_head (i := ⟨':' :: rest, p⟩) rfl rfl
  refine ⟨.past rfl (p.after ':'), rfl, ?_⟩
  unfold readColon
  rw [hskip]
  rfl

theorem Decodes.map {α β : Type} {decode : Decoder α} {front : List Char} {a : α}
    (h : Decodes decode front rest a) (g : α → β) :
    Decodes (fun i => do let (a, left) ← decode i; return (g a, left)) front rest (g a) := by
  intro i hi
  obtain ⟨left, hleft, h⟩ := h i hi
  refine ⟨left, hleft, ?_⟩
  dsimp only
  rw [h]
  rfl

end

/-- The members, read one after the other, lead from some fields to others. -/
inductive Runs {σ : Type} (step : FieldStep σ) : σ → List (String × Option String) → σ → Prop where
  | nil {f} : Runs step f [] f
  | absent {f g name ms} : Runs step f ms g → Runs step f ((name, none) :: ms) g
  | present {f f' g name value ms decode} : step f name = .ok decode →
      (∀ rest, Ends rest → Decodes decode value.toList rest f') → Runs step f' ms g →
      Runs step f ((name, some value) :: ms) g

namespace Runs
variable {σ α : Type} {step : FieldStep σ} {f g : σ} {ms : List (String × Option String)}

/-- A field that is set once. -/
theorem set {name value : String} {decode : Decoder α} {a : α} {set : α → σ}
    (hstep : step f name = setOnce name none decode set)
    (hvalue : ∀ rest, Ends rest → Decodes decode value.toList rest a)
    (h : Runs step (set a) ms g) : Runs step f ((name, some value) :: ms) g :=
  .present hstep (fun rest hrest => (hvalue rest hrest).map set) h

/-- A field that may be absent. -/
theorem option (set : Option (Option α) → σ) {name : String} {x : Option α} {write : α → String}
    {decode : Decoder (Option α)}
    (hstep : step (set none) name = setOnce name none decode fun a => set (some a))
    (hvalue : ∀ a ∈ x, ∀ rest, Ends rest → Decodes decode (write a).toList rest (some a))
    (h : Runs step (set (x.map some)) ms g) :
    Runs step (set none) ((name, x.map write) :: ms) g := by
  cases x with
  | none => exact .absent h
  | some a => exact .set hstep (hvalue a rfl) h

theorem decodes (h : Runs step f ms g) (first : Bool) (rest : List Char) :
    Decodes (decodeFields step first f) (membersText first ms) rest g := by
  induction h generalizing first with
  | nil =>
    intro i hi
    obtain ⟨j, hj, h⟩ := decodes_nextKey_none first i hi
    refine ⟨j, hj, ?_⟩
    rw [decodeFields, h]
    rfl
  | absent _ ih => exact ih first
  | @present f f' g name value ms decode hstep hvalue _ ih =>
    intro i hi
    rw [membersText, List.append_assoc, List.append_assoc, ← List.append_assoc] at hi
    obtain ⟨j, hj, hkey⟩ := decodes_nextKey_some first name i hi
    rw [List.cons_append, List.append_assoc] at hj
    obtain ⟨k, hk, hcolon⟩ := readColon_eq hj
    obtain ⟨l, hl, hvalue⟩ := hvalue _ (ends_membersText ms rest) k.1 hk
    obtain ⟨m, hm, hlater⟩ := ih false l.1 hl
    refine ⟨(j.trans k).trans (l.trans m), hm, ?_⟩
    rw [decodeFields, hkey]
    simp only [bind, Except.bind, pure, Except.pure, hstep, hcolon, hvalue, hlater]

end Runs

/-- What holds of the fields before a record is read, and is kept by each member, holds of the
fields of the record. -/
theorem decodeFields_preserves {σ : Type} {step : FieldStep σ} {P : σ → Prop}
    (hstep : ∀ f name decode, step f name = .ok decode → P f →
      ∀ i f' j, decode i = .ok (f', j) → P f') {first : Bool} {f g : σ} (hf : P f) {i : Input}
    {j : Input.Shorter i} (h : decodeFields step first f i = .ok (g, j)) : P g := by
  induction hn : i.text.length using Nat.strongRecOn generalizing i f first with
  | ind n ih =>
    rw [decodeFields] at h
    obtain ⟨⟨_ | name, j⟩, hkey, h⟩ := exists_of_bind_eq_ok h
    · cases h
      exact hf
    · dsimp only at h
      split at h
      · cases h
      · next decode hdecode =>
        obtain ⟨k, -, h⟩ := exists_of_bind_eq_ok h
        obtain ⟨⟨f', l⟩, hvalue, h⟩ := exists_of_bind_eq_ok h
        obtain ⟨⟨g', m⟩, hlater, h⟩ := exists_of_bind_eq_ok h
        cases h
        have hlt := ((j.trans k).trans l).2
        exact ih _ (hn ▸ hlt) (hstep f name decode hdecode hf _ f' l hvalue) hlater rfl

theorem exists_of_setOnce {α σ : Type} {name : String} {field : Option α} {decode : Decoder α}
    {set : α → σ} {decode' : Decoder σ} (h : setOnce name field decode set = .ok decode')
    {i : Input} {f : σ} {j : Input.Shorter i} (hf : decode' i = .ok (f, j)) :
    ∃ a, decode i = .ok (a, j) ∧ f = set a := by
  unfold setOnce at h
  split at h
  · cases h
  · cases h
    obtain ⟨⟨a, k⟩, ha, hf⟩ := exists_of_bind_eq_ok hf
    cases hf
    exact ⟨a, ha, rfl⟩

theorem exists_of_decodeOption {α : Type} {decode : Decoder α} {i : Input} {a : α}
    {j : Input.Shorter i} (h : decodeOption decode i = .ok (some a, j)) :
    ∃ i' j', decode i' = .ok (a, j') := by
  unfold decodeOption at h
  dsimp only at h
  split at h
  · obtain ⟨_, -, h⟩ := exists_of_bind_eq_ok h
    cases h
  · obtain ⟨⟨a, k⟩, ha, h⟩ := exists_of_bind_eq_ok h
    cases h
    exact ⟨_, k, ha⟩

end Reckon.Json
