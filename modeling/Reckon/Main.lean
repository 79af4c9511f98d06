import Reckon.CommandLine

/-! The command: reads what the arguments name, runs, and writes. -/
namespace Reckon.Main

open CommandLine

def ofBytes (bytes : ByteArray) : Except ReadFault String :=
  match String.fromUTF8? bytes with
  | some text => .ok text
  | none => .error .notText

def readFile (path : String) : IO (Except ReadFault String) := do
  match ← (IO.FS.readBinFile path).toBaseIO with
  | .ok bytes => return ofBytes bytes
  | .error (.noFileOrDirectory ..) => return .error .notFound
  | .error (.inappropriateType ..) => return .error .isDirectory
  | .error e => return .error (.system (toString e))

/-- The rest of the standard input, behind what has been read. -/
partial def readRest (input : IO.FS.Stream) (read : ByteArray) : IO ByteArray := do
  let bytes ← input.read 65536
  if bytes.isEmpty then return read else readRest input (read ++ bytes)

/-- The texts that an invocation reads. -/
def readInputs (o : Options) : IO Inputs := do
  let files ← o.paths.mapM fun path => return (path, ← readFile path)
  let stdin ← if o.readsStdin then readRest (← IO.getStdin) .empty else pure .empty
  return ⟨ofBytes stdin, fun path => (files.lookup path).getD (.error .notFound)⟩

def outcome (args : List String) : IO Outcome := do
  match Options.ofArguments args with
  | .ok o => return runOptions (← readInputs o) unexplained o
  | .error r => return .refused r

end Reckon.Main

def main (args : List String) : IO UInt32 := do
  let outcome ← Reckon.Main.outcome args
  (← IO.getStdout).putStr outcome.stdout
  (← IO.getStderr).putStr outcome.stderr
  return outcome.exitCode.toUInt32
