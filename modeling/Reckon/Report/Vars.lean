import Reckon.Bindings
import Reckon.Json.Writer

/-! Bindings checked before they are used. -/
namespace Reckon

/-- What a check of bindings says, without evaluating anything. -/
def checkVars (vars : String) : String :=
  let (valid, names, message) :=
    match Bindings.ofText? vars with
    | .ok b => (true, b.names, none)
    | .error e => (false, [], some e.message)
  Json.writeRecord
    [("valid", some (Json.writeBool valid)),
      ("names", some (Json.writeList (names.map Json.writeString))),
      ("message", message.map Json.writeString)]

end Reckon
