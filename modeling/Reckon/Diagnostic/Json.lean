import Reckon.Diagnostic
import Reckon.Json.Decode
import Reckon.Json.Writer

/-! Diagnostics in JSON: a record that holds the ends of the span beside the other fields. -/
namespace Reckon

namespace Category

def ofLabel? (label : String) : Option Category :=
  [form, naming].find? (·.label == label)

def ofLabel (label : String) : Except Json.Fault Category :=
  match ofLabel? label with
  | some c => .ok c
  | none =>
    .error (.unknownVariant label ("`" ++ form.label ++ "` or `" ++ naming.label ++ "`"))

end Category

namespace Diagnostic

open Json (Decoder)

def toJson (d : Diagnostic) : String :=
  Json.writeRecord
    [("code", some d.code.number.toNat.repr),
      ("category", some (Json.writeString d.category.label)),
      ("kind", some (Json.writeString d.kind)),
      ("message", some (Json.writeString d.message)),
      ("start", some d.span.start.repr),
      ("end", some d.span.stop.repr),
      ("subject", d.subject.map Json.writeString)]

/-- The fields as far as they have been read. The span is judged only when all have been. -/
structure Fields where
  code : Option Code := none
  category : Option Category := none
  kind : Option String := none
  message : Option String := none
  subject : Option (Option String) := none
  /-- All other members, last first. -/
  others : List (String × Json) := []

def labelOf : Json → Except Json.Fault Category
  | .string s => Category.ofLabel s
  | v => .error (.invalidType (Json.describe v) "variant identifier")

def decodeLabel : Decoder Category :=
  Json.scalarOf "variant identifier" (· == '"') labelOf

def decodeUnit : Decoder Unit :=
  Json.scalarOf "unit" (· == 'n') fun _ => .ok ()

/-- A category is its label, or an object whose only key is the label, with the value `null`. -/
def decodeCategory : Decoder Category := fun i => do
  let j := i.skipGap
  match h : j.1.text with
  | [] => .error (j.1.atEnd .value)
  | '"' :: _ =>
    let (c, k) ← decodeLabel j.1
    return (c, j.transLt k)
  | '\x7b' :: _ =>
    let j := j.transLt (.past h j.1.position.byte)
    let (c, k) ← decodeLabel j.1
    let l ← Json.readColon k.1
    let ((), m) ← decodeUnit l.1
    let n := (j.trans k |>.trans l |>.trans m).transLe m.1.skipGap
    match h' : n.1.text with
    | [] => .error (n.1.here (.endOf .object))
    | d :: _ =>
      if d = '\x7d' then return (c, n.trans (.past h' (n.1.position.after d)))
      else .error (n.1.here .expectedValue)
  | _ => .error (j.1.ahead .expectedValue)

def decodeCode : Decoder Code := fun i => do
  let (n, rest) ← Json.decodeNatural UInt16.size "u16" i
  return (⟨.ofNat n⟩, rest)

def diagnosticStep (depth : Nat) (f : Fields) (name : String) :
    Except Json.Fault (Decoder Fields) :=
  match name with
  | "code" => Json.setOnce name f.code decodeCode fun c => { f with code := some c }
  | "category" => Json.setOnce name f.category decodeCategory fun c => { f with category := some c }
  | "kind" => Json.setOnce name f.kind Json.decodeString fun s => { f with kind := some s }
  | "message" => Json.setOnce name f.message Json.decodeString fun s => { f with message := some s }
  | "subject" =>
    Json.setOnce name f.subject (Json.decodeOption Json.decodeString) fun s =>
      { f with subject := some s }
  | _ => .ok fun i => do
    let (v, rest) ← Json.readValue depth i
    return ({ f with others := (name, v) :: f.others }, rest)

def required {α : Type} (name : String) : Option α → Except Json.Fault α
  | some a => .ok a
  | none => .error (.missingField name)

/-- The ends of a span among members in the order in which they came. -/
def spanOf (start stop : Option Nat) : List (String × Json) → Except Json.Fault Span
  | [] => do return ⟨← required "start" start, ← required "end" stop⟩
  | (name, v) :: rest =>
    let offset : Except Json.Fault Nat := Json.naturalOf (2 ^ 64) Json.wordName v
    match name with
    | "start" =>
      if start.isSome then .error (.duplicateField name)
      else do spanOf (some (← offset)) stop rest
    | "end" =>
      if stop.isSome then .error (.duplicateField name)
      else do spanOf start (some (← offset)) rest
    | _ => spanOf start stop rest

def Fields.complete (f : Fields) : Except Json.Fault Diagnostic := do
  let code ← required "code" f.code
  let category ← required "category" f.category
  let kind ← required "kind" f.kind
  let message ← required "message" f.message
  let span ← spanOf none none f.others.reverse
  return { code, category, kind, message, span, subject := f.subject.join }

/-- Decodes a record inside which `depth` more brackets may be open. Members of other names are
ignored. -/
def decode (depth : Nat) : Decoder Diagnostic := fun i => do
  let j := i.skipGap
  match h : j.1.text with
  | [] => .error (j.1.atEnd .value)
  | '\x7b' :: _ =>
    let k := j.transLt (.past h j.1.position.byte)
    let (f, l) ← Json.decodeFields (diagnosticStep depth) true {} k.1
    match f.complete with
    | .ok d => return (d, k.trans l)
    | .error fault => .error (l.1.here fault)
  | _ => .error (Json.mismatch "struct Diagnostic" j.1)

def ofJson? (text : String) : Except Json.Error Diagnostic :=
  Json.decodeString? (decode (Json.depthLimit - 1)) text

end Diagnostic

end Reckon
