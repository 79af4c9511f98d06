import Reckon.Failure

/-! A failure flattened for transport: plain fields, of which only a decoder may make any mix. -/
namespace Reckon

structure Diagnostic where
  code : Code
  category : Category
  kind : String
  message : String
  span : Span
  subject : Option String
deriving DecidableEq, Repr

namespace Diagnostic

def ofFailure (f : Failure) : Diagnostic where
  code := f.code
  category := f.code.category
  kind := f.kind
  message := f.message
  span := f.span
  subject := f.subject

def render (d : Diagnostic) : String :=
  d.span.render ++ ": " ++ d.code.render ++ " [" ++ d.category.label ++ "] " ++ d.message

end Diagnostic

end Reckon
