import Reckon.Diagnostic
import Reckon.Evaluation

/-! Outcomes for transport. Numbers are written as text, so that NaN and the infinities survive. -/
namespace Reckon

structure Report where
  success : Bool
  result : Option String
  message : Option String
  diagnostic : Option Diagnostic
deriving DecidableEq, Repr

namespace Report

def ofOutcome : Except Failure Float → Report
  | .ok x => ⟨true, some (Decimal.resultText x), none, none⟩
  | .error f => ⟨false, none, some f.message, some (.ofFailure f)⟩

/-- The report of bindings that cannot be built. -/
def ofBindingsError (e : BindingsError) : Report := ⟨false, none, some e.message, none⟩

/-- Evaluates a source text under bindings written as JSON; blank text means no bindings. -/
def ofSource (source vars : String) (limits : Limits := {}) : Report :=
  match Bindings.ofOptionalText? vars with
  | .ok b => ofOutcome (evaluate source b limits)
  | .error e => ofBindingsError e

end Report

end Reckon
