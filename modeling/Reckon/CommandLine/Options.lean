import Reckon.Decimal.Numeral
import Reckon.Version

/-! Command-line arguments. They are read from left to right, and the first one that is wrong, or
that asks for the version or for help, ends the reading. -/
namespace Reckon.CommandLine

structure Options where
  /-- The file with the expression; `-` is the standard input. -/
  file : Option String := none
  vars : Option String := none
  varsFile : Option String := none
  config : Option String := none
  maxDepth : Option Nat := none
  json : Bool := false
  mathTable : Bool := false
deriving DecidableEq, Repr

inductive Refusal where
  | usage
  | version
  | help
deriving DecidableEq, Repr

inductive Setting where
  | vars
  | varsFile
  | config
  | maxDepth
deriving DecidableEq, Repr

def Setting.ofName? : String → Option Setting
  | "vars" => some .vars
  | "vars-file" => some .varsFile
  | "config" => some .config
  | "max-depth" => some .maxDepth
  | _ => none

/-- A 64-bit count, with an optional plus sign. -/
def count? (text : String) : Option Nat :=
  let ds := match text.toList with
    | '+' :: ds => ds
    | ds => ds
  if ds ≠ [] ∧ ds.all Decimal.isDigit ∧ Decimal.digitsValue ds < 2 ^ 64 then
    some (Decimal.digitsValue ds)
  else none

def path? (text : String) : Option String := if text = "" then none else some text

/-- The path of the standard input: a dash, with nothing behind it that leads elsewhere. -/
def isStdin (path : String) : Bool :=
  match path.splitOn "/" with
  | name :: steps => name == "-" && steps.all fun s => s == "" || s == "."
  | [] => false

namespace Options

/-- Gives a setting the value that `value?` has, unless it has one. -/
def setOnce {α : Type} (old value? : Option α) (set : α → Options) : Except Refusal Options :=
  match old, value? with
  | none, some value => .ok (set value)
  | _, _ => .error .usage

def set (o : Options) (setting : Setting) (text : String) : Except Refusal Options :=
  match setting with
  | .vars => setOnce o.vars (some text) fun v => { o with vars := some v }
  | .varsFile => setOnce o.varsFile (path? text) fun v => { o with varsFile := some v }
  | .config => setOnce o.config (path? text) fun v => { o with config := some v }
  | .maxDepth => setOnce o.maxDepth (count? text) fun v => { o with maxDepth := some v }

def setFile (o : Options) (text : String) : Except Refusal Options :=
  setOnce o.file (path? text) fun v => { o with file := some v }

def switch (o : Options) (name : String) : Except Refusal Options :=
  match name with
  | "json" => if o.json then .error .usage else .ok { o with json := true }
  | "math-table" => if o.mathTable then .error .usage else .ok { o with mathTable := true }
  | "version" => .error .version
  | "help" => .error .help
  | _ => .error .usage

/-- What the invocation needs as a whole: one source of variables at most, and a file unless only
the table is wanted. -/
def complete (o : Options) : Except Refusal Options :=
  if o.vars.isSome ∧ o.varsFile.isSome then .error .usage
  else if o.file.isNone ∧ !o.mathTable then .error .usage
  else .ok o

def setFiles (o : Options) : List String → Except Refusal Options
  | [] => o.complete
  | file :: rest => do (← o.setFile file).setFiles rest

/-- An argument that starts another option instead of giving a value. -/
def looksLikeOption (arg : String) : Bool := arg.toList.head? = some '-' && arg ≠ "-"

def setAll (o : Options) : List String → Except Refusal Options
  | [] => o.complete
  | arg :: rest =>
    match arg.toList with
    | ['-', '-'] => o.setFiles rest
    | '-' :: '-' :: long =>
      let name := String.ofList (long.takeWhile (· != '='))
      match long.dropWhile (· != '='), Setting.ofName? name with
      | _ :: value, some setting => do (← o.set setting (String.ofList value)).setAll rest
      | _ :: _, none => .error .usage
      | [], none => do (← o.switch name).setAll rest
      | [], some setting =>
        match rest with
        | value :: rest =>
          if looksLikeOption value then .error .usage
          else do (← o.set setting value).setAll rest
        | [] => .error .usage
    | ['-'] => do (← o.setFile arg).setAll rest
    | '-' :: 'V' :: _ => .error .version
    | '-' :: 'h' :: _ => .error .help
    | '-' :: _ => .error .usage
    | _ => do (← o.setFile arg).setAll rest

def ofArguments (args : List String) : Except Refusal Options := setAll {} args

def sources (o : Options) : List String := [o.file, o.varsFile].filterMap id

def readsStdin (o : Options) : Bool := !o.mathTable && o.sources.any isStdin

def paths (o : Options) : List String :=
  if o.mathTable then [] else o.sources.filter (!isStdin ·) ++ o.config.toList

end Options

end Reckon.CommandLine
