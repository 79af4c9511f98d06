import Reckon.Bindings
import Reckon.Failure
import Reckon.Math.Member
import Reckon.Token

/-! What the names of an expression stand for. -/
namespace Reckon.Resolution

/-- The finite number that a variable is bound to. -/
def variableNamed (b : Bindings) (name : String) : Except Cause Float :=
  match b.get? name with
  | none => .error (.undefinedVariable name)
  | some v =>
    match v.number? with
    | some x => .ok x
    | none => .error (.notANumber name)

section
variable {α : Type}

/-- What a member is good for in its place: bare it has to be a constant, and called a function. -/
def memberNamed (use? : Math.Member → Option α) (name : String) : Except Cause α :=
  match Math.member? name with
  | none => .error (.undefinedMember name)
  | some m =>
    match use? m with
    | some x => .ok x
    | none => .error (.notCallable name)

/-- What the lexeme of a token stands for; where it stands for nothing, the token is to blame. -/
def ofToken (named : String → Except Cause α) (name : Token) : Except Failure α :=
  (named name.lexeme).mapError (⟨·, name.span⟩)

theorem mapError_ofToken (named : String → Except Cause α) (name : Token) :
    (ofToken named name).mapError (·.cause) = named name.lexeme := by
  unfold ofToken
  cases named name.lexeme <;> rfl

theorem ofToken_memberNamed (use? : Math.Member → Option α) (name : Token) :
    ofToken (memberNamed use?) name =
      match Math.member? name.lexeme with
      | none => .error ⟨.undefinedMember name.lexeme, name.span⟩
      | some m =>
        match use? m with
        | some x => .ok x
        | none => .error ⟨.notCallable name.lexeme, name.span⟩ := by
  unfold ofToken memberNamed
  cases Math.member? name.lexeme with
  | none => rfl
  | some m =>
    dsimp only
    cases use? m <;> rfl

end

def constantNamed : String → Except Cause Float := memberNamed Math.Member.constant?

def functionNamed : String → Except Cause Math.Function := memberNamed Math.Member.function?

def variableValue (b : Bindings) : Token → Except Failure Float := ofToken (variableNamed b)

def constantValue : Token → Except Failure Float := ofToken constantNamed

def callee : Token → Except Failure Math.Function := ofToken functionNamed

theorem variableValue_eq (b : Bindings) (name : Token) :
    variableValue b name =
      match b.get? name.lexeme with
      | none => .error ⟨.undefinedVariable name.lexeme, name.span⟩
      | some v =>
        match v.number? with
        | some x => .ok x
        | none => .error ⟨.notANumber name.lexeme, name.span⟩ := by
  unfold variableValue ofToken variableNamed
  cases b.get? name.lexeme with
  | none => rfl
  | some v =>
    dsimp only
    cases v.number? <;> rfl

end Reckon.Resolution
