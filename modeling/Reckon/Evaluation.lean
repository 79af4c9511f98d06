import Reckon.Interpreter
import Reckon.Text.Normal
import Reckon.Token.Scan

/-! Source text to value: the text is measured, normalized, cut into tokens, checked and
interpreted, and the first failure of these is the outcome. -/
namespace Reckon

/-- The expression that a source text writes, whether or not its names mean anything. -/
def validate (source : String) (limits : Limits := {}) : Except Failure Expression :=
  if limits.maxSourceLength < Text.byteLength source.toList then
    .error ⟨.malformed (some ("input longer than " ++ limits.maxSourceLength.repr ++ " bytes")),
      Span.point 0⟩
  else do
    let tokens ← tokenize (Text.normalize source.toList)
    Expression.ofTokens? limits tokens

/-- A text that is not too long is scanned and checked. -/
theorem validate_of_short {source : String} {limits : Limits}
    (h : Text.byteLength source.toList ≤ limits.maxSourceLength) :
    validate source limits =
      tokenize (Text.normalize source.toList) >>= fun ts => Expression.ofTokens? limits ts := by
  unfold validate
  rw [if_neg (Nat.not_lt.mpr h)]

/-- The value of a source text. -/
def evaluate (source : String) (b : Bindings) (limits : Limits := {}) : Except Failure Float := do
  (← validate source limits).value b

end Reckon
