import Reckon.Proofs.Json.Record
import Reckon.Report.Json

/-! The text of a report is decoded to the report. -/
namespace Reckon
open Json

namespace Diagnostic

theorem decodes_decodeCategory (c : Category) (rest : List Char) :
    Decodes decodeCategory (writeString c.label).toList rest c := by
  have hlabel : Decodes decodeLabel (writeString c.label).toList rest c := by
    have hread := decodes_readScalar_string c.label rest
    rw [toList_writeString] at hread ⊢
    exact decodes_scalarOf rfl rfl hread (by cases c <;> rfl)
  rintro ⟨text, p⟩ htext
  obtain ⟨j, hj, h⟩ := hlabel ⟨text, p⟩ htext
  refine ⟨j, hj, ?_⟩
  rw [toList_writeString] at htext
  obtain rfl : text = '"' :: (c.label.toList.flatMap writeChar ++ ['"'] ++ rest) := htext
  have hskip := Input.skipGap_of_head
    (i := ⟨'"' :: (c.label.toList.flatMap writeChar ++ ['"'] ++ rest), p⟩) rfl rfl
  unfold decodeCategory
  rw [hskip]
  dsimp only
  rw [h]
  rfl

theorem decodes_decodeCode {rest : List Char} (hends : Ends rest) (c : Code) :
    Decodes decodeCode c.number.toNat.repr.toList rest c := by
  have hnatural := decodes_decodeNatural hends c.number.toNat_lt_size (by decide) "u16"
  have h := hnatural.map fun n => (⟨.ofNat n⟩ : Code)
  rwa [UInt16.ofNat_toNat] at h

theorem decodes_readValue_natural {rest : List Char} (hends : Ends rest) {n : Nat}
    (hn : n < wordLimit) (depth : Nat) :
    Decodes (readValue depth) n.repr.toList rest (.integer n) := by
  rintro ⟨text, p⟩ htext
  obtain ⟨j, hj, h⟩ := decodes_readScalar_natural hends hn ⟨text, p⟩ htext
  refine ⟨j, hj, ?_⟩
  have hdigits := Lexeme.digits_repr n
  obtain ⟨d, ds, hd⟩ := List.exists_cons_of_ne_nil (Lexeme.whole_repr n).ne_nil
  rw [hd] at htext hdigits
  have hdigit : Decimal.isDigit d = true := hdigits d (List.mem_cons_self ..)
  obtain rfl : text = d :: (ds ++ rest) := htext
  have hskip := Input.skipGap_of_head (i := ⟨d :: (ds ++ rest), p⟩) rfl
    (Input.isGap_of_isDigit hdigit)
  unfold readValue
  rw [hskip]
  dsimp only
  split
  · next hopen => cases hopen; cases hdigit
  · next hopen => cases hopen; cases hdigit
  · next hopen => cases hopen; cases hdigit
  · next hopen => cases hopen; cases hdigit
  · rw [h]
    rfl

def fields (d : Diagnostic) : Fields where
  code := some d.code
  category := some d.category
  kind := some d.kind
  message := some d.message
  subject := d.subject.map some
  others := [("end", .integer d.span.stop), ("start", .integer d.span.start)]

/-- The ends of the span fit into a word. -/
structure Bounded (d : Diagnostic) : Prop where
  start : d.span.start < 2 ^ 64
  stop : d.span.stop < 2 ^ 64

theorem naturalOf_integer {n bound : Nat} (h : n < bound) (wanted : String) :
    naturalOf bound wanted (.integer n) = .ok n := by
  simp [naturalOf, h]

theorem spanOf_ends {v w : Json} {m n : Nat} (hv : naturalOf (2 ^ 64) wordName v = .ok m)
    (hw : naturalOf (2 ^ 64) wordName w = .ok n) :
    spanOf none none [("start", v), ("end", w)] = .ok ⟨m, n⟩ := by
  have hend : spanOf (some m) none [("end", w)] = .ok ⟨m, n⟩ := by
    unfold spanOf
    rw [hw]
    rfl
  unfold spanOf
  rw [hv]
  exact hend

theorem complete_fields {d : Diagnostic} (h : d.Bounded) : d.fields.complete = .ok d := by
  have hstart : naturalOf (2 ^ 64) wordName (.integer d.span.start) = .ok d.span.start :=
    naturalOf_integer h.start wordName
  have hstop : naturalOf (2 ^ 64) wordName (.integer d.span.stop) = .ok d.span.stop :=
    naturalOf_integer h.stop wordName
  have hspan : spanOf none none d.fields.others.reverse = .ok d.span := spanOf_ends hstart hstop
  have hsubject : d.fields.subject.join = d.subject := by
    rw [fields]
    cases d.subject <;> rfl
  rw [Fields.complete, hspan, hsubject]
  rfl

theorem runs_toJson {d : Diagnostic} (h : d.Bounded) (depth : Nat) :
    Runs (diagnosticStep depth) {}
      [("code", some d.code.number.toNat.repr), ("category", some (writeString d.category.label)),
        ("kind", some (writeString d.kind)), ("message", some (writeString d.message)),
        ("start", some d.span.start.repr), ("end", some d.span.stop.repr),
        ("subject", d.subject.map writeString)] d.fields := by
  let f₁ : Fields := { code := some d.code }
  let f₂ : Fields := { f₁ with category := some d.category }
  let f₃ : Fields := { f₂ with kind := some d.kind }
  let f₄ : Fields := { f₃ with message := some d.message }
  let f₅ : Fields := { f₄ with others := [("start", .integer d.span.start)] }
  let f₆ : Fields := { f₅ with others := ("end", .integer d.span.stop) :: f₅.others }
  have hcode : diagnosticStep depth {} "code" =
    setOnce "code" none decodeCode fun c => { code := some c } := rfl
  have hcategory : diagnosticStep depth f₁ "category" =
    setOnce "category" none decodeCategory fun c => { f₁ with category := some c } := rfl
  have hkind : diagnosticStep depth f₂ "kind" =
    setOnce "kind" none decodeString fun s => { f₂ with kind := some s } := rfl
  have hmessage : diagnosticStep depth f₃ "message" =
    setOnce "message" none decodeString fun s => { f₃ with message := some s } := rfl
  have hstart : diagnosticStep depth f₄ "start" =
    setOnce "start" none (readValue depth) fun v => { f₄ with others := [("start", v)] } := rfl
  have hend : diagnosticStep depth f₅ "end" =
    setOnce "end" none (readValue depth) fun v => { f₅ with others := ("end", v) :: f₅.others } :=
    rfl
  have hsubject : diagnosticStep depth f₆ "subject" =
    setOnce "subject" none (decodeOption decodeString) fun s => { f₆ with subject := some s } := rfl
  refine .set hcode (fun rest hrest => decodes_decodeCode hrest d.code) ?_
  refine .set hcategory (fun rest _ => decodes_decodeCategory d.category rest) ?_
  refine .set hkind (fun rest _ => decodes_decodeString d.kind rest) ?_
  refine .set hmessage (fun rest _ => decodes_decodeString d.message rest) ?_
  refine .set hstart (fun rest hrest => decodes_readValue_natural hrest h.start depth) ?_
  refine .set hend (fun rest hrest => decodes_readValue_natural hrest h.stop depth) ?_
  exact Runs.option (fun s => { f₆ with subject := s }) hsubject
    (fun s _ rest _ => decodes_optionalString s rest) .nil

theorem decodes_of_fields {depth : Nat} {front rest : List Char} {f : Fields} {d : Diagnostic}
    (hfields : Decodes (decodeFields (diagnosticStep depth) true {}) front rest f)
    (hcomplete : f.complete = .ok d) : Decodes (decode depth) ('\x7b' :: front) rest d := by
  rintro ⟨_, p⟩ ⟨⟩
  obtain ⟨j, hj, h⟩ := hfields ⟨_, p.byte⟩ rfl
  refine ⟨Input.Shorter.trans (.past rfl p.byte) j, hj, ?_⟩
  have hskip := Input.skipGap_of_head (i := ⟨'\x7b' :: (front ++ rest), p⟩) rfl rfl
  show decode depth ⟨'\x7b' :: (front ++ rest), p⟩ = _
  unfold decode
  rw [hskip]
  dsimp only
  split
  · next hopen => cases hopen
  · next hopen =>
    cases hopen
    simp only [h, hcomplete, bind, Except.bind, pure, Except.pure]
  · next hopen => exact absurd rfl (hopen _)

theorem decodes_toJson {d : Diagnostic} (h : d.Bounded) (depth : Nat) (rest : List Char) :
    Decodes (decode depth) d.toJson.toList rest d := by
  rw [toJson, toList_writeRecord]
  exact decodes_of_fields ((runs_toJson h depth).decodes true rest) (complete_fields h)

end Diagnostic

namespace Report

def fields (r : Report) : Fields where
  success := some r.success
  result := r.result.map some
  message := r.message.map some
  diagnostic := r.diagnostic.map some

theorem complete_fields (r : Report) : r.fields.complete = .ok r := by
  obtain ⟨success, result, message, diagnostic⟩ := r
  cases result <;> cases message <;> cases diagnostic <;> rfl

theorem decodes_decodeDiagnostic {d : Diagnostic} (h : d.Bounded) (rest : List Char) :
    Decodes decodeDiagnostic d.toJson.toList rest (some d) := by
  have hdecode := Diagnostic.decodes_toJson h (depthLimit - 2) rest
  rw [Diagnostic.toJson, toList_writeRecord] at hdecode ⊢
  exact decodes_decodeOption rfl (by decide) hdecode

theorem runs_toJson {r : Report} (h : ∀ d ∈ r.diagnostic, d.Bounded) :
    Runs reportStep {}
      [("success", some (writeBool r.success)), ("result", r.result.map writeString),
        ("message", r.message.map writeString), ("diagnostic", r.diagnostic.map Diagnostic.toJson)]
      r.fields := by
  let f₁ : Fields := { success := some r.success }
  let f₂ : Fields := { f₁ with result := r.result.map some }
  let f₃ : Fields := { f₂ with message := r.message.map some }
  have hsuccess : reportStep {} "success" =
    setOnce "success" none decodeBool fun b => { success := some b } := rfl
  have hresult : reportStep f₁ "result" =
    setOnce "result" none decodeText fun s => { f₁ with result := some s } := rfl
  have hmessage : reportStep f₂ "message" =
    setOnce "message" none decodeText fun s => { f₂ with message := some s } := rfl
  have hdiagnostic : reportStep f₃ "diagnostic" =
    setOnce "diagnostic" none decodeDiagnostic fun d => { f₃ with diagnostic := some d } := rfl
  refine .set hsuccess (fun rest _ => decodes_decodeBool r.success rest) ?_
  refine Runs.option (fun s => { f₁ with result := s }) hresult
    (fun s _ rest _ => decodes_optionalString s rest) ?_
  refine Runs.option (fun s => { f₂ with message := s }) hmessage
    (fun s _ rest _ => decodes_optionalString s rest) ?_
  exact Runs.option (fun d => { f₃ with diagnostic := d }) hdiagnostic
    (fun d hd rest _ => decodes_decodeDiagnostic (h d hd) rest) .nil

theorem decodes_of_fields {front rest : List Char} {f : Fields} {r : Report}
    (hfields : Decodes (decodeFields reportStep true {}) front rest f)
    (hcomplete : f.complete = .ok r) : Decodes decode ('\x7b' :: front) rest r := by
  rintro ⟨_, p⟩ ⟨⟩
  obtain ⟨j, hj, h⟩ := hfields ⟨_, p.byte⟩ rfl
  refine ⟨Input.Shorter.trans (.past rfl p.byte) j, hj, ?_⟩
  have hskip := Input.skipGap_of_head (i := ⟨'\x7b' :: (front ++ rest), p⟩) rfl rfl
  show decode ⟨'\x7b' :: (front ++ rest), p⟩ = _
  unfold decode
  rw [hskip]
  dsimp only
  split
  · next hopen => cases hopen
  · next hopen =>
    cases hopen
    simp only [h, hcomplete, bind, Except.bind, pure, Except.pure]
  · next hopen => cases hopen
  · next hopen _ => exact absurd rfl (hopen _)

theorem decodes_toJson {r : Report} (h : ∀ d ∈ r.diagnostic, d.Bounded) (rest : List Char) :
    Decodes decode r.toJson.toList rest r := by
  rw [toJson, toList_writeRecord]
  exact decodes_of_fields ((runs_toJson h).decodes true rest) r.complete_fields

theorem ofJson?_toJson_of_bounded {r : Report} (h : ∀ d ∈ r.diagnostic, d.Bounded) :
    ofJson? r.toJson = .ok r := by
  obtain ⟨j, hj, hdecode⟩ := decodes_toJson h [] (Input.ofString r.toJson) (List.append_nil _).symm
  have hfinish : finish j.1 = .ok () := by
    obtain ⟨⟨text, p⟩, hlt⟩ := j
    obtain rfl : text = [] := hj
    rfl
  rw [ofJson?, decodeString?, hdecode]
  show (finish j.1 >>= fun _ => pure r) = _
  rw [hfinish]
  rfl

end Report

theorem naturalOf_lt {bound n : Nat} {wanted : String} {v : Json}
    (h : naturalOf bound wanted v = .ok n) : n < bound := by
  unfold naturalOf at h
  split at h
  · split at h
    · next hbound =>
      cases h
      omega
    · cases h
  · cases h

namespace Diagnostic

theorem spanOf_lt {ms : List (String × Json)} {start stop : Option Nat} {span : Span}
    (hstart : ∀ n ∈ start, n < 2 ^ 64) (hstop : ∀ n ∈ stop, n < 2 ^ 64)
    (h : spanOf start stop ms = .ok span) : span.start < 2 ^ 64 ∧ span.stop < 2 ^ 64 := by
  have hrequired {name : String} {o : Option Nat} {n : Nat} (h : required name o = .ok n) :
      n ∈ o := by
    cases o <;> cases h
    rfl
  induction ms generalizing start stop with
  | nil =>
    rw [spanOf] at h
    obtain ⟨m, hm, h⟩ := exists_of_bind_eq_ok h
    obtain ⟨n, hn, h⟩ := exists_of_bind_eq_ok h
    cases h
    exact ⟨hstart m (hrequired hm), hstop n (hrequired hn)⟩
  | cons member ms ih =>
    have hnew {v : Json} {n : Nat} (hv : naturalOf (2 ^ 64) wordName v = .ok n) :
        ∀ m ∈ some n, m < 2 ^ 64 := by
      rintro _ ⟨⟩
      exact naturalOf_lt hv
    unfold spanOf at h
    dsimp only at h
    split at h
    · split at h
      · cases h
      · obtain ⟨n, hn, h⟩ := exists_of_bind_eq_ok h
        exact ih (hnew hn) hstop h
    · split at h
      · cases h
      · obtain ⟨n, hn, h⟩ := exists_of_bind_eq_ok h
        exact ih hstart (hnew hn) h
    · exact ih hstart hstop h

/-- Whatever is decoded has a span whose ends fit into a word. -/
theorem bounded_of_decode {depth : Nat} {i : Input} {d : Diagnostic} {j : Input.Shorter i}
    (h : decode depth i = .ok (d, j)) : d.Bounded := by
  unfold decode at h
  dsimp only at h
  split at h
  · cases h
  · obtain ⟨⟨f, l⟩, -, h⟩ := exists_of_bind_eq_ok h
    dsimp only at h
    split at h
    · next hcomplete =>
      cases h
      obtain ⟨_, -, hcomplete⟩ := exists_of_bind_eq_ok hcomplete
      obtain ⟨_, -, hcomplete⟩ := exists_of_bind_eq_ok hcomplete
      obtain ⟨_, -, hcomplete⟩ := exists_of_bind_eq_ok hcomplete
      obtain ⟨_, -, hcomplete⟩ := exists_of_bind_eq_ok hcomplete
      obtain ⟨span, hspan, hcomplete⟩ := exists_of_bind_eq_ok hcomplete
      cases hcomplete
      have hnone : ∀ n ∈ (none : Option Nat), n < 2 ^ 64 := by
        intro n hn
        cases hn
      obtain ⟨hstart, hstop⟩ := spanOf_lt hnone hnone hspan
      exact ⟨hstart, hstop⟩
    · cases h
  · cases h

end Diagnostic

namespace Report

theorem bounded_of_decodeDiagnostic {i : Input} {d : Diagnostic} {j : Input.Shorter i}
    (h : decodeDiagnostic i = .ok (some d, j)) : d.Bounded := by
  obtain ⟨i', j', h⟩ := exists_of_decodeOption h
  exact Diagnostic.bounded_of_decode h

theorem bounded_of_elementOr {i : Input} {d : Diagnostic} {j : Input.NoLonger i}
    (h : elementOr decodeDiagnostic i = .ok (some d, j)) : d.Bounded := by
  obtain ⟨element, helement, h⟩ := exists_of_bind_eq_ok h
  split at h
  · cases h
  · cases h
    obtain ⟨next, -, helement⟩ := exists_of_bind_eq_ok helement
    split at helement
    · cases helement
    · obtain ⟨⟨a, k⟩, ha, helement⟩ := exists_of_bind_eq_ok helement
      cases helement
      exact bounded_of_decodeDiagnostic ha

def Fields.Bounded (f : Fields) : Prop := ∀ d, f.diagnostic = some (some d) → d.Bounded

theorem bounded_of_reportStep {f f' : Fields} {name : String} {decode : Decoder Fields}
    (hstep : reportStep f name = .ok decode) (hf : f.Bounded) {i : Input} {j : Input.Shorter i}
    (h : decode i = .ok (f', j)) : f'.Bounded := by
  unfold reportStep at hstep
  split at hstep
  · obtain ⟨_, -, rfl⟩ := exists_of_setOnce hstep h
    exact hf
  · obtain ⟨_, -, rfl⟩ := exists_of_setOnce hstep h
    exact hf
  · obtain ⟨_, -, rfl⟩ := exists_of_setOnce hstep h
    exact hf
  · obtain ⟨d?, hd, rfl⟩ := exists_of_setOnce hstep h
    intro d hsome
    cases hsome
    exact bounded_of_decodeDiagnostic hd
  · cases hstep
    obtain ⟨_, -, h⟩ := exists_of_bind_eq_ok h
    cases h
    exact hf

theorem bounded_of_decode {i : Input} {r : Report} {j : Input.Shorter i}
    (h : decode i = .ok (r, j)) : ∀ d ∈ r.diagnostic, d.Bounded := by
  unfold decode at h
  dsimp only at h
  split at h
  · cases h
  · obtain ⟨⟨f, l⟩, hfields, h⟩ := exists_of_bind_eq_ok h
    have hnone : Fields.Bounded {} := by
      intro d hd
      cases hd
    have hf : f.Bounded := decodeFields_preserves (P := Fields.Bounded)
      (fun _ _ _ hstep hf _ _ _ => bounded_of_reportStep hstep hf) hnone hfields
    dsimp only at h
    split at h
    · next hcomplete =>
      cases h
      unfold Fields.complete at hcomplete
      split at hcomplete
      · cases hcomplete
        intro d hd
        exact hf d (Option.join_eq_some_iff.mp hd)
      · cases hcomplete
    · cases h
  · obtain ⟨⟨r, l⟩, hlist, h⟩ := exists_of_bind_eq_ok h
    cases h
    obtain ⟨element, -, hlist⟩ := exists_of_bind_eq_ok hlist
    split at hlist
    · cases hlist
    · obtain ⟨_, -, hlist⟩ := exists_of_bind_eq_ok hlist
      obtain ⟨_, -, hlist⟩ := exists_of_bind_eq_ok hlist
      obtain ⟨⟨d?, m⟩, hd, hlist⟩ := exists_of_bind_eq_ok hlist
      obtain ⟨_, -, hlist⟩ := exists_of_bind_eq_ok hlist
      cases hlist
      rintro d ⟨⟩
      exact bounded_of_elementOr hd
  · cases h

/-- A report is read back from its text as it was, if the ends of its span fit into a word. That
they do wherever a report was read, so that writing what was read and reading it again changes
nothing. -/
theorem ofJson?_toJson :
    (∀ r : Report, (∀ d ∈ r.diagnostic, d.span.start < 2 ^ 64 ∧ d.span.stop < 2 ^ 64) →
      ofJson? r.toJson = .ok r) ∧
    ∀ (text : String) (r : Report), ofJson? text = .ok r → ofJson? r.toJson = .ok r := by
  constructor
  · intro r h
    exact ofJson?_toJson_of_bounded fun d hd => ⟨(h d hd).1, (h d hd).2⟩
  · intro text r h
    obtain ⟨⟨r, j⟩, hdecode, h⟩ := exists_of_bind_eq_ok h
    obtain ⟨-, -, h⟩ := exists_of_bind_eq_ok h
    cases h
    exact ofJson?_toJson_of_bounded (bounded_of_decode hdecode)

/-- A report of a failure, with a quote and a line feed in its message. -/
theorem ofJson?_toJson_failure :
    let d : Diagnostic := ⟨⟨65535⟩, .form, "k", "say \"a\\b\"\n", ⟨3, 2⟩, some "\x01"⟩
    ofJson? (Report.mk false none (some "") (some d)).toJson =
      .ok ⟨false, none, some "", some d⟩ := by
  intro d
  refine ofJson?_toJson.1 _ ?_
  rintro _ ⟨⟩
  decide

end Report

end Reckon
