import Reckon.Span

/-! The closed set of ways in which an evaluation fails. A failure carries lexemes of the source
and the place where it was met, and never a value that a name was bound to. -/
namespace Reckon

/-- Whether the text is no expression, or a name in a well-formed expression means nothing. -/
inductive Category where
  | form
  | naming
deriving DecidableEq, Repr

def Category.label : Category → String
  | .form => "syntax"
  | .naming => "resolution"

structure Code where
  number : UInt16
deriving DecidableEq, Repr

namespace Code

/-- Numbers from 200 to 299 concern names, all others the form. -/
def category (c : Code) : Category :=
  if 200 ≤ c.number ∧ c.number ≤ 299 then .naming else .form

def render (c : Code) : String := "E" ++ c.number.toNat.repr

end Code

inductive Cause where
  /-- A stray character, a bad numeral, an empty text, or a token where no operand can start. -/
  | malformed (detail : Option String)
  | unbalanced
  | missingOperand (operator : String)
  /-- Tokens are left over after a complete expression. -/
  | trailing (rest : String)
  | undefinedVariable (name : String)
  | undefinedMember (name : String)
  /-- A constant is called, or a function is not. -/
  | notCallable (name : String)
  /-- A name is bound to something that is no finite number. -/
  | notANumber (name : String)
deriving DecidableEq, Repr

namespace Cause

def code : Cause → Code
  | .malformed _ => ⟨100⟩
  | .unbalanced => ⟨101⟩
  | .missingOperand _ => ⟨102⟩
  | .trailing _ => ⟨103⟩
  | .undefinedVariable _ => ⟨200⟩
  | .undefinedMember _ => ⟨201⟩
  | .notCallable _ => ⟨202⟩
  | .notANumber _ => ⟨203⟩

def kind : Cause → String
  | .malformed _ => "malformed_input"
  | .unbalanced => "unbalanced_parens"
  | .missingOperand _ => "missing_operand"
  | .trailing _ => "trailing_input"
  | .undefinedVariable _ => "undefined_variable"
  | .undefinedMember _ => "undefined_math_member"
  | .notCallable _ => "not_callable"
  | .notANumber _ => "not_a_number"

def subject : Cause → Option String
  | .malformed detail => detail
  | .unbalanced => none
  | .missingOperand s | .trailing s | .undefinedVariable s | .undefinedMember s
  | .notCallable s | .notANumber s => some s

def message : Cause → String
  | .malformed none => "malformed"
  | .malformed (some detail) => "malformed " ++ detail
  | .unbalanced => "unbalanced parentheses"
  | .missingOperand operator => "missing operand: " ++ operator
  | .trailing rest => "unparsed: " ++ rest
  | .undefinedVariable name => name ++ " is not defined"
  | .undefinedMember name => "Math." ++ name ++ " not defined"
  | .notCallable name => "Math." ++ name ++ " not callable"
  | .notANumber name => name ++ " is not a number"

end Cause

structure Failure where
  cause : Cause
  /-- Where in the normalized source the failure was met. -/
  span : Span
deriving DecidableEq, Repr

namespace Failure

def code (f : Failure) : Code := f.cause.code

def kind (f : Failure) : String := f.cause.kind

def subject (f : Failure) : Option String := f.cause.subject

def message (f : Failure) : String := f.cause.message

/-- A failure is one of naming exactly when its cause names what could not be resolved. -/
theorem category_code (f : Failure) :
    f.code.category = .naming ↔
      ∃ name, f.cause = .undefinedVariable name ∨ f.cause = .undefinedMember name ∨
        f.cause = .notCallable name ∨ f.cause = .notANumber name := by
  obtain ⟨c, s⟩ := f
  cases c <;> simp [code, Cause.code, Code.category]

end Failure

end Reckon
