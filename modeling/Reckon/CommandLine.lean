import Reckon.CommandLine.Options
import Reckon.Limits.Toml
import Reckon.Math.Table
import Reckon.Report.Json

/-! One invocation of the command: what it writes and how it ends, given its arguments and the
contents of what it reads. -/
namespace Reckon.CommandLine

inductive ReadFault where
  | notFound
  | isDirectory
  | notText
  /-- Any other fault, in the words of the system. -/
  | system (text : String)
deriving DecidableEq, Repr

def ReadFault.message : ReadFault → String
  | .notFound => "No such file or directory (os error 2)"
  | .isDirectory => "Is a directory (os error 21)"
  | .notText => "stream did not contain valid UTF-8"
  | .system text => text

structure Inputs where
  stdin : Except ReadFault String
  file : String → Except ReadFault String

/-- A file that is no configuration, and why not. -/
structure ConfigFault where
  path : String
  reason : String
deriving DecidableEq, Repr

inductive Trouble where
  | unreadable (path : String) (fault : ReadFault)
  | invalidConfig (fault : ConfigFault)
  | bindings (error : BindingsError)

def Trouble.message : Trouble → String
  | .unreadable path fault => "cannot read " ++ path ++ ": " ++ fault.message
  | .invalidConfig fault => "invalid config " ++ fault.path ++ ": " ++ fault.reason
  | .bindings error => error.message

inductive Outcome where
  | refused (r : Refusal)
  /-- There was nothing to do. -/
  | idle
  | table (text : String)
  | report (r : Report)
  | value (x : Float)
  | failure (f : Failure)
  | trouble (t : Trouble)

namespace Outcome

/-- Zero for success, one for an expression without a value, and two for all that keeps it from
being evaluated. -/
def exitCode : Outcome → Nat
  | .refused .usage | .trouble _ => 2
  | .report r => if r.success then 0 else 1
  | .failure _ | .idle => 1
  | .refused _ | .table _ | .value _ => 0

def usageText : String :=
  "usage: safexpr [--vars JSON | --vars-file FILE] [--config FILE] [--max-depth N] [--json] FILE\n"
    ++ "       safexpr --math-table\n"

def stdout : Outcome → String
  | .refused .version => "safexpr " ++ version ++ "\n"
  | .refused .help => usageText
  | .table text => text ++ "\n"
  | .report r => r.toJson ++ "\n"
  | .value x => Decimal.resultText x ++ "\n"
  | .refused .usage | .idle | .failure _ | .trouble _ => ""

def stderr : Outcome → String
  | .refused .usage => usageText
  | .failure f => "error: " ++ f.message ++ "\n"
  | .trouble t => "safexpr: " ++ t.message ++ "\n"
  | .refused _ | .idle | .table _ | .report _ | .value _ => ""

end Outcome

/-- A text from a file or from the standard input, which is empty once it has been read. -/
def readText (inputs : Inputs) (stdinRead : Bool) (path : String) : Except Trouble String :=
  let text? :=
    if !isStdin path then inputs.file path else if stdinRead then .ok "" else inputs.stdin
  text?.mapError (.unreadable path)

/-- The limits of a configuration file, or the defaults, with the depth of the arguments. What is
wrong with a document is put into words by `explain`. -/
def readLimits (inputs : Inputs) (explain : String → String) (o : Options) :
    Except Trouble Limits := do
  let limits ← match o.config with
    | none => pure {}
    | some path =>
      let text ← (inputs.file path).mapError (.unreadable path)
      match Limits.ofToml? text.toList with
      | some limits => pure limits
      | none => throw (.invalidConfig ⟨path, explain text⟩)
  return { limits with maxDepth := o.maxDepth.getD limits.maxDepth }

def readBindings (inputs : Inputs) (stdinRead : Bool) (o : Options) : Except Trouble Bindings := do
  let text ← match o.varsFile with
    | some path => readText inputs stdinRead path
    | none => pure (o.vars.getD "")
  (Bindings.ofOptionalText? text).mapError .bindings

/-- Reads everything that a file's evaluation needs: the expression first, then the limits, then
the bindings. -/
def readAll (inputs : Inputs) (explain : String → String) (o : Options) (path : String) :
    Except Trouble (String × Limits × Bindings) := do
  let source ← readText inputs false path
  let limits ← readLimits inputs explain o
  let bindings ← readBindings inputs (isStdin path) o
  return (source, limits, bindings)

def runOptions (inputs : Inputs) (explain : String → String) (o : Options) : Outcome :=
  if o.mathTable then .table Math.tableText
  else
    match o.file with
    | none => .idle
    | some path =>
      match readAll inputs explain o path with
      | .error t => .trouble t
      | .ok (source, limits, bindings) =>
        let result := evaluate source bindings limits
        if o.json then .report (.ofOutcome result)
        else
          match result with
          | .ok x => .value x
          | .error f => .failure f

/-- The least that can be said of a document that holds no limits. -/
def unexplained (_text : String) : String := "TOML parse error"

def run (inputs : Inputs) (args : List String) (explain : String → String := unexplained) :
    Outcome :=
  match Options.ofArguments args with
  | .ok o => runOptions inputs explain o
  | .error r => .refused r

end Reckon.CommandLine
