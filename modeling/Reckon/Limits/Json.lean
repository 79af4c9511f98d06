import Reckon.Json.Decode
import Reckon.Json.Writer
import Reckon.Limits

/-! Limits in JSON: a record in which absent fields keep their defaults and other fields are
refused, or a list of the two values. -/
namespace Reckon.Limits

open Json (Decoder)

def depthField : String := "max_depth"

def lengthField : String := "max_source_len"

/-- Limits of which only some are given. -/
structure Partial where
  depth : Option Nat := none
  length : Option Nat := none
deriving DecidableEq, Repr

/-- Absent limits take their defaults. -/
def Partial.complete (p : Partial) : Limits where
  maxDepth := p.depth.getD ({} : Limits).maxDepth
  maxSourceLength := p.length.getD ({} : Limits).maxSourceLength

def decodeLimit : Decoder Nat := Json.decodeNatural (2 ^ 64) Json.wordName

def limitStep (p : Partial) (name : String) : Except Json.Fault (Decoder Partial) :=
  if name = depthField then
    Json.setOnce name p.depth decodeLimit fun n => { p with depth := some n }
  else if name = lengthField then
    Json.setOnce name p.length decodeLimit fun n => { p with length := some n }
  else
    .error (.unknownField name ("`" ++ depthField ++ "` or `" ++ lengthField ++ "`"))

/-- The limits of a list whose opening bracket has been read. -/
def decodeLimitList (i : Json.Input) : Except Json.Error (Limits × Json.Input.Shorter i) := do
  match ← Json.decodeElement decodeLimit true i with
  | .ended => return ({}, ← Json.closeList i)
  | .decoded depth j =>
    match ← Json.decodeElement decodeLimit false j.1 with
    | .ended => return ({ maxDepth := depth }, j.trans (← Json.closeList j.1))
    | .decoded length last =>
      let k := j.trans last
      return (⟨depth, length⟩, k.trans (← Json.closeList k.1))

def decode : Decoder Limits := fun i => do
  let j := i.skipGap
  match h : j.1.text with
  | [] => .error (j.1.atEnd .value)
  | '\x7b' :: _ =>
    let k := j.transLt (.past h j.1.position.byte)
    let (p, l) ← Json.decodeFields limitStep true {} k.1
    return (p.complete, k.trans l)
  | '[' :: _ =>
    let k := j.transLt (.past h j.1.position.byte)
    let (limits, l) ← decodeLimitList k.1
    return (limits, k.trans l)
  | _ => .error (Json.mismatch "struct EvalConfig" j.1)

def ofJson? (text : String) : Except Json.Error Limits := Json.decodeString? decode text

def toJson (l : Limits) : String :=
  Json.writeRecord
    [(depthField, some l.maxDepth.repr), (lengthField, some l.maxSourceLength.repr)]

end Reckon.Limits
