import Reckon.Diagnostic.Json
import Reckon.Report

/-! Reports in JSON. -/
namespace Reckon

namespace Report

open Json (Decoder)

def toJson (r : Report) : String :=
  Json.writeRecord
    [("success", some (Json.writeBool r.success)),
      ("result", r.result.map Json.writeString),
      ("message", r.message.map Json.writeString),
      ("diagnostic", r.diagnostic.map Diagnostic.toJson)]

structure Fields where
  success : Option Bool := none
  result : Option (Option String) := none
  message : Option (Option String) := none
  diagnostic : Option (Option Diagnostic) := none

def decodeText : Decoder (Option String) := Json.decodeOption Json.decodeString

def decodeDiagnostic : Decoder (Option Diagnostic) :=
  Json.decodeOption (Diagnostic.decode (Json.depthLimit - 2))

def reportStep (f : Fields) (name : String) : Except Json.Fault (Decoder Fields) :=
  match name with
  | "success" => Json.setOnce name f.success Json.decodeBool fun b => { f with success := some b }
  | "result" => Json.setOnce name f.result decodeText fun s => { f with result := some s }
  | "message" => Json.setOnce name f.message decodeText fun s => { f with message := some s }
  | "diagnostic" =>
    Json.setOnce name f.diagnostic decodeDiagnostic fun d =>
      { f with diagnostic := some d }
  | _ => Json.ignoreField f

def Fields.complete (f : Fields) : Except Json.Fault Report :=
  match f.success with
  | some success => .ok ⟨success, f.result.join, f.message.join, f.diagnostic.join⟩
  | none => .error (.missingField "success")

/-- An element of a list, or nothing where the list has ended. -/
def elementOr {α : Type} (decode : Decoder (Option α)) (i : Json.Input) :
    Except Json.Error (Option α × Json.Input.NoLonger i) := do
  match ← Json.decodeElement decode false i with
  | .ended => return (none, .refl i)
  | .decoded a j => return (a, j.toNoLonger)

/-- The fields of a report in order, behind an opening bracket. -/
def decodeReportList (i : Json.Input) : Except Json.Error (Report × Json.Input.Shorter i) := do
  match ← Json.decodeElement Json.decodeBool true i with
  | .ended =>
    .error ((i.pastClosing ']').here (.invalidLength 0 "struct OutcomeReport with 4 elements"))
  | .decoded success j =>
    let (result, k) ← elementOr decodeText j.1
    let (message, l) ← elementOr decodeText k.1
    let (diagnostic, m) ← elementOr decodeDiagnostic l.1
    let left := j.transLe (k.trans (l.trans m))
    return (⟨success, result, message, diagnostic⟩, left.trans (← Json.closeList left.1))

/-- Decodes a report: a record, of which members of other names are ignored, or a list of the
fields. -/
def decode : Decoder Report := fun i => do
  let j := i.skipGap
  match h : j.1.text with
  | [] => .error (j.1.atEnd .value)
  | '\x7b' :: _ =>
    let k := j.transLt (.past h j.1.position.byte)
    let (f, l) ← Json.decodeFields reportStep true {} k.1
    match f.complete with
    | .ok r => return (r, k.trans l)
    | .error fault => .error (l.1.here fault)
  | '[' :: _ =>
    let k := j.transLt (.past h j.1.position.byte)
    let (r, l) ← decodeReportList k.1
    return (r, k.trans l)
  | _ => .error (Json.mismatch "struct OutcomeReport" j.1)

def ofJson? (text : String) : Except Json.Error Report := Json.decodeString? decode text

end Report

end Reckon
