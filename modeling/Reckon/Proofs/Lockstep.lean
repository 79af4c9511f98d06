import Reckon.Proofs.Tree.Value

/-! The two descents in step: where the recognizer reads an expression, the interpreter stops at the
same token or fails over a name. It takes none of the branches for tokens out of place. -/
namespace Reckon
open Token

/-- A name of the expression does not mean what the expression asks of it. -/
def Failure.OverName (f : Failure) : Prop :=
  ∃ name, f.cause = .undefinedVariable name ∨ f.cause = .undefinedMember name ∨
    f.cause = .notCallable name ∨ f.cause = .notANumber name

def FailsOverNames {α : Type} (r : Except Failure α) : Prop := ∀ f, r = .error f → f.OverName

namespace FailsOverNames
variable {α β : Type}

theorem ok (a : α) : FailsOverNames (.ok a) := nofun

theorem bind {r : Except Failure α} {k : α → Except Failure β} (h : FailsOverNames r)
    (hk : ∀ a, FailsOverNames (k a)) : FailsOverNames (r >>= k) := by
  cases r with
  | error f =>
    rintro _ ⟨⟩
    exact h f rfl
  | ok a => exact hk a

end FailsOverNames

namespace Resolution

theorem failsOverNames_variableValue (b : Bindings) (name : Token) :
    FailsOverNames (variableValue b name) := by
  rw [variableValue_eq]
  cases b.get? name.lexeme with
  | none =>
    rintro _ ⟨⟩
    exact ⟨_, .inl rfl⟩
  | some v =>
    dsimp only
    cases v.number? with
    | some x => exact .ok x
    | none =>
      rintro _ ⟨⟩
      exact ⟨_, .inr (.inr (.inr rfl))⟩

theorem failsOverNames_memberNamed {α : Type} (use? : Math.Member → Option α) (name : Token) :
    FailsOverNames (ofToken (memberNamed use?) name) := by
  rw [ofToken_memberNamed]
  cases Math.member? name.lexeme with
  | none =>
    rintro _ ⟨⟩
    exact ⟨_, .inr (.inl rfl)⟩
  | some m =>
    dsimp only
    cases use? m with
    | some x => exact .ok x
    | none =>
      rintro _ ⟨⟩
      exact ⟨_, .inr (.inr (.inl rfl))⟩

end Resolution

namespace Tree
variable (b : Bindings)

mutual

theorem failsOverNames_value : (e : Tree) → FailsOverNames (e.value b)
  | .number x => .ok x
  | .var name => Resolution.failsOverNames_variableValue b name
  | .constant name => Resolution.failsOverNames_memberNamed _ name
  | .call name args => by
    rw [value]
    refine (Resolution.failsOverNames_memberNamed _ name).bind fun f => ?_
    exact (failsOverNames_values args).bind fun xs => .ok _
  | .group e => by
    rw [value]
    exact failsOverNames_value e
  | .signed negative e => by
    rw [value]
    exact (failsOverNames_value e).bind fun x => .ok _
  | .binary op l r => by
    rw [value]
    refine (failsOverNames_value l).bind fun x => ?_
    exact (failsOverNames_value r).bind fun y => .ok _

theorem failsOverNames_values : (es : List Tree) → FailsOverNames (values b es)
  | [] => .ok []
  | e :: es => by
    rw [values]
    refine (failsOverNames_value e).bind fun x => ?_
    exact (failsOverNames_values es).bind fun xs => .ok _

end

end Tree

namespace Interpreter

/-- The interpreter gets from some tokens to others with a value, or fails over a name. -/
def Arrives (b : Bindings) (finish : Nat) (ts rest : List Token) : Prop :=
  (∃ x h, climb b finish 0 ts = .ok (x, ⟨rest, h⟩)) ∨
    ∃ f, climb b finish 0 ts = .error f ∧ f.OverName

theorem arrives_of_reads {ts rest : List Token} (h : Recognizer.Reads .expr ts rest)
    (b : Bindings) (finish : Nat) : Arrives b finish ts rest := by
  obtain ⟨e, _, _, _, hclimb⟩ := exists_spells_of_reads h
  have hvalue := hclimb b finish
  cases he : e.value b with
  | ok x =>
    rw [he] at hvalue
    obtain ⟨hlt, hx⟩ := reached_eq_ok_iff.mp hvalue
    exact .inl ⟨x, hlt, hx⟩
  | error f =>
    rw [he] at hvalue
    exact .inr ⟨f, reached_eq_error_iff.mp hvalue, e.failsOverNames_value b f he⟩

/-- The interpreter stops where the recognizer does, at any place of any token sequence. All tokens
of an expression are used up. -/
theorem climb_in_step (b : Bindings) :
    (∀ (tokens : List Token) (p : Nat) (opened : List Span) (r : Shorter (tokens.drop p)),
      Recognizer.expr (Token.finish tokens) opened (tokens.drop p) = .ok r →
        ∃ q, p < q ∧ q ≤ tokens.length ∧ r.val = tokens.drop q ∧
          Arrives b (Token.finish tokens) (tokens.drop p) (tokens.drop q)) ∧
      ∀ e : Expression, Arrives b (Token.finish e.tokens) e.tokens [] := by
  constructor
  · rintro tokens p opened ⟨rest, hshorter⟩ hr
    have hreads := Recognizer.leftover_expr_eq_ok_iff.mp (leftover_eq_ok_iff.mpr ⟨hshorter, hr⟩)
    obtain ⟨_, used, hused, -⟩ := exists_spells_of_reads hreads
    have hlength : tokens.length - p = used.length + rest.length := by
      rw [← List.length_drop, hused, List.length_append]
    have hrest : rest = tokens.drop (p + used.length) := by
      rw [← List.drop_drop, hused, List.drop_left]
    rw [List.length_drop] at hshorter
    refine ⟨p + used.length, by omega, by omega, hrest, ?_⟩
    rw [← hrest]
    exact arrives_of_reads hreads b _
  · intro e
    exact arrives_of_reads (Recognizer.sentence_eq_ok_iff.mp e.derivable) b _

/-- The name inside of a group: both descents stop at the closing parenthesis. -/
theorem climb_in_step_group :
    let opening : Token := ⟨.symbol .openParen, "(", ⟨0, 1⟩⟩
    let name : Token := ⟨.identifier "x", "x", ⟨1, 2⟩⟩
    let close : Token := ⟨.symbol .closeParen, ")", ⟨2, 3⟩⟩
    ∃ q, 1 < q ∧ q ≤ 3 ∧ [close] = [opening, name, close].drop q ∧
      Arrives Bindings.empty (Token.finish [opening, name, close]) [name, close]
        ([opening, name, close].drop q) := by
  intro opening name close
  have hreads : Recognizer.Reads .expr [name, close] [close] :=
    .expr (.unsigned (.identifier rfl nofun)) (.stop (avoids_cons.mpr (by decide)))
  obtain ⟨hlt, hexpr⟩ := leftover_eq_ok_iff.mp (Recognizer.leftover_expr_eq_ok_iff.mpr hreads)
  exact (climb_in_step Bindings.empty).1 [opening, name, close] 1 [opening.span] ⟨[close], hlt⟩
    hexpr

end Interpreter

end Reckon
