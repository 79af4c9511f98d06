import Mathlib.Logic.Function.Basic
import Reckon.Proofs.Json.Record
import Reckon.Report.Json

/-! Different reports have different texts. The text of each value shows where it ends, so that a
record determines its fields one after the other; no bound on the numbers in it is needed. -/
namespace Reckon
open Decimal

namespace Json

/-- The text of a value, in front of the end of a member, determines the value and what follows. -/
def Delimited {α : Type} (write : α → String) : Prop :=
  ∀ a b rest rest', Ends rest → Ends rest' →
    (write a).toList ++ rest = (write b).toList ++ rest' → a = b ∧ rest = rest'

/-- One text is decoded in one way. -/
theorem Decodes.unique {α : Type} {decode : Decoder α} {front front' rest rest' : List Char}
    {a b : α} (h : Decodes decode front rest a) (h' : Decodes decode front' rest' b)
    (htext : front ++ rest = front' ++ rest') : a = b ∧ rest = rest' := by
  obtain ⟨j, hj, h⟩ := h ⟨front ++ rest, ⟨1, 0⟩⟩ rfl
  obtain ⟨k, hk, h'⟩ := h' ⟨front ++ rest, ⟨1, 0⟩⟩ htext
  rw [h] at h'
  cases h'
  exact ⟨rfl, hj.symm.trans hk⟩

theorem writeString_unique {s t : String} {rest rest' : List Char}
    (h : (writeString s).toList ++ rest = (writeString t).toList ++ rest') :
    s = t ∧ rest = rest' :=
  (decodes_decodeString s rest).unique (decodes_decodeString t rest') h

namespace Delimited
variable {α β : Type} {write : α → String}

theorem comp (h : Delimited write) {f : β → α} (hf : Function.Injective f) :
    Delimited fun b => write (f b) := by
  intro a b rest rest' hrest hrest' htext
  obtain ⟨heq, hrest⟩ := h _ _ _ _ hrest hrest' htext
  exact ⟨hf heq, hrest⟩

theorem injective (h : Delimited write) : Function.Injective write := by
  intro a b heq
  have hend : Ends [','] := ⟨_, _, rfl, .inl rfl⟩
  exact (h a b _ _ hend hend (by rw [heq])).1

end Delimited

theorem delimited_writeString : Delimited writeString := fun _ _ _ _ _ _ => writeString_unique

theorem delimited_writeBool : Delimited writeBool := fun a b rest rest' _ _ =>
  (decodes_decodeBool a rest).unique (decodes_decodeBool b rest')

/-- Digits of a number end where no digit follows. -/
theorem delimited_repr : Delimited Nat.repr := by
  intro m n rest rest' hrest hrest' h
  have hdigits : m.repr.toList = n.repr.toList := by
    have htake := congrArg (List.takeWhile isDigit) h
    rwa [takeWhile_of_stop (Lexeme.digits_repr m) hrest.isDigit_eq_false,
      takeWhile_of_stop (Lexeme.digits_repr n) hrest'.isDigit_eq_false] at htake
  refine ⟨?_, List.append_cancel_left (hdigits ▸ h)⟩
  rw [← digitsValue_repr m, hdigits, digitsValue_repr]

section members
variable {α : Type} {write : α → String} {name : String} {first : Bool}
  {ms ns : List (String × Option String)} {rest rest' : List Char}

theorem membersText_present (hwrite : Delimited write) {a b : α}
    (h : membersText first ((name, some (write a)) :: ms) ++ rest =
      membersText first ((name, some (write b)) :: ns) ++ rest') :
    a = b ∧ membersText false ms ++ rest = membersText false ns ++ rest' := by
  simp only [membersText, List.append_assoc, List.cons_append] at h
  have hvalue := (List.cons.inj (List.append_cancel_left (List.append_cancel_left h))).2
  exact hwrite a b _ _ (ends_membersText ms rest) (ends_membersText ns rest') hvalue

/-- The member that comes next has one of the names that are to come. -/
theorem mem_names_of_membersText
    (h : membersText false ms ++ rest = ',' :: ((writeString name).toList ++ rest')) :
    name ∈ ms.map (·.1) := by
  induction ms with
  | nil => cases h
  | cons m ms ih =>
    obtain ⟨other, _ | value⟩ := m
    · exact List.mem_cons_of_mem _ (ih h)
    · simp only [membersText, Bool.false_eq_true, if_false, List.append_assoc, List.cons_append,
        List.nil_append] at h
      obtain ⟨rfl, -⟩ := writeString_unique (List.cons.inj h).2
      exact List.mem_cons_self ..

/-- An absent member is told from a present one, unless its name is to come again. -/
theorem membersText_optional (hwrite : Delimited write) {x y : Option α}
    (hms : name ∉ ms.map (·.1)) (hns : name ∉ ns.map (·.1))
    (h : membersText false ((name, x.map write) :: ms) ++ rest =
      membersText false ((name, y.map write) :: ns) ++ rest') :
    x = y ∧ membersText false ms ++ rest = membersText false ns ++ rest' := by
  have hpresent (a : α) (rs : List (String × Option String)) (last : List Char) :
      membersText false ((name, (some a).map write) :: rs) ++ last =
        ',' :: ((writeString name).toList ++
          (':' :: ((write a).toList ++ membersText false rs) ++ last)) := by
    simp [membersText]
  cases x with
  | none =>
    have h : membersText false ms ++ rest = _ := h
    cases y with
    | none => exact ⟨rfl, h⟩
    | some b => exact absurd (mem_names_of_membersText (h.trans (hpresent b ns rest'))) hms
  | some a =>
    cases y with
    | none =>
      have h : _ = membersText false ns ++ rest' := h
      exact absurd (mem_names_of_membersText (h.symm.trans (hpresent a ms rest))) hns
    | some b =>
      obtain ⟨hvalue, h⟩ := membersText_present hwrite h
      exact ⟨congrArg some hvalue, h⟩

end members

end Json

open Json

theorem Category.label_injective : Function.Injective Category.label := by
  intro c d
  cases c <;> cases d <;> decide

theorem Code.toNat_injective : Function.Injective fun c : Code => c.number.toNat := by
  rintro ⟨m⟩ ⟨n⟩ h
  exact congrArg Code.mk (UInt16.toNat_inj.mp h)

theorem Diagnostic.delimited_toJson : Delimited toJson := by
  rintro ⟨code, category, kind, message, ⟨start, stop⟩, subject⟩
    ⟨code', category', kind', message', ⟨start', stop'⟩, subject'⟩ rest rest' - - h
  rw [toJson, toJson, toList_writeRecord, toList_writeRecord] at h
  replace h := (List.cons.inj h).2
  dsimp only at h
  obtain ⟨hcode, h⟩ := membersText_present (delimited_repr.comp Code.toNat_injective) h
  obtain ⟨hcategory, h⟩ :=
    membersText_present (delimited_writeString.comp Category.label_injective) h
  obtain ⟨hkind, h⟩ := membersText_present delimited_writeString h
  obtain ⟨hmessage, h⟩ := membersText_present delimited_writeString h
  obtain ⟨hstart, h⟩ := membersText_present delimited_repr h
  obtain ⟨hstop, h⟩ := membersText_present delimited_repr h
  obtain ⟨hsubject, h⟩ :=
    membersText_optional delimited_writeString List.not_mem_nil List.not_mem_nil h
  have hrest : rest = rest' := (List.cons.inj h).2
  subst hcode hcategory hkind hmessage hstart hstop hsubject
  exact ⟨rfl, hrest⟩

theorem Report.delimited_toJson : Delimited toJson := by
  rintro ⟨success, result, message, diagnostic⟩ ⟨success', result', message', diagnostic'⟩
    rest rest' - - h
  rw [toJson, toJson, toList_writeRecord, toList_writeRecord] at h
  replace h := (List.cons.inj h).2
  dsimp only at h
  obtain ⟨hsuccess, h⟩ := membersText_present delimited_writeBool h
  obtain ⟨hresult, h⟩ := membersText_optional delimited_writeString (by simp) (by simp) h
  obtain ⟨hmessage, h⟩ := membersText_optional delimited_writeString (by simp) (by simp) h
  obtain ⟨hdiagnostic, h⟩ :=
    membersText_optional Diagnostic.delimited_toJson (by simp) (by simp) h
  have hrest : rest = rest' := (List.cons.inj h).2
  subst hsuccess hresult hmessage hdiagnostic
  exact ⟨rfl, hrest⟩

end Reckon
