import Mathlib.Data.List.Basic
import Reckon.Proofs.Occurrence
import Reckon.Proofs.Respacing
import Reckon.Report.Json

/-! What an outcome depends on. A failure depends on the bindings only through what kind of value
stands behind the names that the expression reads, and a value only through the numbers there. -/
namespace Reckon
open Token

/-- What is known of a name without the value bound to it. -/
inductive Standing where
  | unbound
  /-- Bound to something that stands for no finite number. -/
  | noNumber
  | number
deriving DecidableEq, Repr

namespace Bindings

def standing (b : Bindings) (name : String) : Standing :=
  match b.get? name with
  | none => .unbound
  | some v => if v.number?.isSome then .number else .noNumber

/-- The finite number that a name stands for. -/
def number? (b : Bindings) (name : String) : Option Float := (b.get? name).bind (·.number?)

end Bindings

/-- The names that an expression reads as variables. -/
def Expression.variables (e : Expression) : List String :=
  ((occurrences false e.tokens).filter (·.use == .read)).map (·.name.lexeme)

theorem Expression.mem_variables {e : Expression} {o : Occurrence}
    (ho : o ∈ occurrences false e.tokens) (huse : o.use = .read) :
    o.name.lexeme ∈ e.variables := by
  have hread : (o.use == .read) = true := beq_iff_eq.mpr huse
  exact List.mem_map_of_mem (List.mem_filter.mpr ⟨ho, hread⟩)

namespace Occurrence
variable {b c : Bindings}

theorem cause?_read (b : Bindings) (name : Token) :
    cause? b ⟨name, .read⟩ =
      match b.standing name.lexeme with
      | .unbound => some (.undefinedVariable name.lexeme)
      | .noNumber => some (.notANumber name.lexeme)
      | .number => none := by
  unfold cause? Bindings.standing
  dsimp only
  cases b.get? name.lexeme with
  | none => rfl
  | some v =>
    dsimp only
    cases v.number? <;> rfl

/-- Only variables ask for bindings, and only for the standing of their own name. -/
theorem failure?_congr {o : Occurrence}
    (h : o.use = .read → b.standing o.name.lexeme = c.standing o.name.lexeme) :
    o.failure? b = o.failure? c := by
  have hcause : o.cause? b = o.cause? c := by
    obtain ⟨name, use⟩ := o
    cases use with
    | read => rw [cause?_read, cause?_read, h rfl]
    | bare => rfl
    | called => rfl
  rw [failure?, failure?, hcause]

end Occurrence

namespace Resolution
variable {b c : Bindings} {name : Token}

theorem variableValue_eq_ok_iff {x : Float} :
    variableValue b name = .ok x ↔ b.number? name.lexeme = some x := by
  rw [variableValue_eq, Bindings.number?]
  cases b.get? name.lexeme with
  | none => simp
  | some v =>
    dsimp only [Option.bind_some]
    cases v.number? <;> simp

/-- Only the number behind a name is read, and where there is none, only the name's standing. -/
theorem variableValue_congr (hstanding : b.standing name.lexeme = c.standing name.lexeme)
    (hnumber : b.number? name.lexeme = c.number? name.lexeme) :
    variableValue b name = variableValue c name := by
  cases hb : variableValue b name with
  | ok x =>
    have hx : b.number? name.lexeme = some x := variableValue_eq_ok_iff.mp hb
    rw [hnumber] at hx
    exact (variableValue_eq_ok_iff.mpr hx).symm
  | error f =>
    have hf : failureOf (variableValue c name) = some f := by
      rw [failureOf_variableValue, ← Occurrence.failure?_congr fun _ => hstanding,
        ← failureOf_variableValue, hb]
      rfl
    exact (failureOf_eq_some_iff.mp hf).symm

end Resolution

namespace Tree
variable {b c : Bindings}

mutual

theorem value_congr : (e : Tree) →
    (∀ o ∈ e.names, o.use = .read →
      Resolution.variableValue b o.name = Resolution.variableValue c o.name) →
    e.value b = e.value c
  | .number x, _ => rfl
  | .var name, h => by
    rw [value, value]
    exact h ⟨name, .read⟩ (List.mem_singleton_self _) rfl
  | .constant name, _ => rfl
  | .call name args, h => by
    have hargs : values b args = values c args :=
      values_congr args fun o ho => h o (List.mem_cons_of_mem _ ho)
    rw [value, value, hargs]
  | .group e, h => by
    rw [value, value]
    exact value_congr e h
  | .signed negative e, h => by
    have he : e.value b = e.value c := value_congr e h
    rw [value, value, he]
  | .binary op l r, h => by
    have hl : l.value b = l.value c :=
      value_congr l fun o ho => h o (List.mem_append_left _ ho)
    have hr : r.value b = r.value c :=
      value_congr r fun o ho => h o (List.mem_append_right _ ho)
    rw [value, value, hl, hr]

theorem values_congr : (es : List Tree) →
    (∀ o ∈ namesOf es, o.use = .read →
      Resolution.variableValue b o.name = Resolution.variableValue c o.name) →
    values b es = values c es
  | [], _ => rfl
  | e :: es, h => by
    have he : e.value b = e.value c :=
      value_congr e fun o ho => h o (List.mem_append_left _ ho)
    have hes : values b es = values c es :=
      values_congr es fun o ho => h o (List.mem_append_right _ ho)
    rw [values, values, he, hes]

end

end Tree

namespace Expression
variable {b c : Bindings} {e : Expression}

theorem failureOf_value_congr (h : ∀ name ∈ e.variables, b.standing name = c.standing name) :
    failureOf (e.value b) = failureOf (e.value c) := by
  have hsame : ∀ o ∈ occurrences false e.tokens, o.failure? b = o.failure? c :=
    fun o ho => Occurrence.failure?_congr fun huse => h _ (mem_variables ho huse)
  rw [failureOf_value, failureOf_value, ← List.head?_filterMap, ← List.head?_filterMap,
    List.filterMap_congr hsame]

theorem value_congr (hstanding : ∀ name ∈ e.variables, b.standing name = c.standing name)
    (hnumber : ∀ name ∈ e.variables, b.number? name = c.number? name) :
    e.value b = e.value c := by
  obtain ⟨tree, hspells, hvalue⟩ := e.exists_tree
  have hnames : occurrences false (e.tokens ++ []) = tree.names ++ [] :=
    hspells.names (avoids_nil _)
  rw [List.append_nil, List.append_nil] at hnames
  rw [hvalue, hvalue]
  refine tree.value_congr fun o ho huse => ?_
  have hname : o.name.lexeme ∈ e.variables := mem_variables (hnames ▸ ho) huse
  exact Resolution.variableValue_congr (hstanding _ hname) (hnumber _ hname)

end Expression

section evaluate
variable {source : String} {limits : Limits} {b c : Bindings}

theorem failureOf_evaluate_congr (h : ∀ e, validate source limits = .ok e →
    ∀ name ∈ e.variables, b.standing name = c.standing name) :
    failureOf (evaluate source b limits) = failureOf (evaluate source c limits) := by
  unfold evaluate
  cases he : validate source limits with
  | error f => rfl
  | ok e => exact Expression.failureOf_value_congr (h e he)

theorem evaluate_congr
    (hstanding : ∀ e, validate source limits = .ok e →
      ∀ name ∈ e.variables, b.standing name = c.standing name)
    (hnumber : ∀ e, validate source limits = .ok e →
      ∀ name ∈ e.variables, b.number? name = c.number? name) :
    evaluate source b limits = evaluate source c limits := by
  unfold evaluate
  cases he : validate source limits with
  | error f => rfl
  | ok e => exact Expression.value_congr (hstanding e he) (hnumber e he)

/-- A name that is not read may be bound to anything. -/
theorem evaluate_insert {name : String} {v : BoundValue} (hc : b.insert name v = .ok c)
    (h : ∀ e, validate source limits = .ok e → name ∉ e.variables) :
    evaluate source c limits = evaluate source b limits := by
  have hget : ∀ e, validate source limits = .ok e →
      ∀ other ∈ e.variables, c.get? other = b.get? other := by
    intro e he other hother
    rw [Bindings.get?_insert hc, if_neg]
    rintro rfl
    exact h e he hother
  apply evaluate_congr
  · intro e he other hother
    rw [Bindings.standing, Bindings.standing, hget e he other hother]
  · intro e he other hother
    rw [Bindings.number?, Bindings.number?, hget e he other hother]

end evaluate

namespace Report

/-- Both are successes, or both are failures that are written in the same way. -/
def Indistinct (r s : Report) : Prop :=
  (r.success = true ∧ s.success = true) ∨
    (r.success = false ∧ s.success = false ∧ r.toJson = s.toJson)

theorem indistinct_of_failureOf_eq {r s : Except Failure Float} (h : failureOf r = failureOf s) :
    Indistinct (ofOutcome r) (ofOutcome s) := by
  cases hs : failureOf s with
  | none =>
    obtain ⟨x, rfl⟩ := failureOf_eq_none_iff.mp (h.trans hs)
    obtain ⟨y, rfl⟩ := failureOf_eq_none_iff.mp hs
    exact .inl ⟨rfl, rfl⟩
  | some f =>
    have hr : r = .error f := failureOf_eq_some_iff.mp (h.trans hs)
    have hs : s = .error f := failureOf_eq_some_iff.mp hs
    rw [hr, hs]
    exact .inr ⟨rfl, rfl, rfl⟩

/-- Bindings under which the variables that are read have the same standing are told apart by no
failure, and not at all if the numbers are the same too, whatever else is bound and however the
numbers are supplied. -/
theorem indistinct_of_standing_eq (source : String) (limits : Limits) (b c : Bindings)
    (hstanding : ∀ e, validate source limits = .ok e →
      ∀ name ∈ e.variables, b.standing name = c.standing name) :
    Indistinct (ofOutcome (evaluate source b limits)) (ofOutcome (evaluate source c limits)) ∧
      ((∀ e, validate source limits = .ok e →
          ∀ name ∈ e.variables, b.number? name = c.number? name) →
        evaluate source b limits = evaluate source c limits) :=
  ⟨indistinct_of_failureOf_eq (failureOf_evaluate_congr hstanding), evaluate_congr hstanding⟩

/-- A blank text for `x` is as good as the number zero, with `y` bound beside it or not. -/
theorem indistinct_of_standing_eq_blank :
    ∃ e, validate "x" = .ok e ∧ e.variables = ["x"] ∧
      Indistinct (ofOutcome (evaluate "x" ⟨[("x", .number 0)]⟩))
        (ofOutcome (evaluate "x" ⟨[("x", .json (.string " ")), ("y", .json .null)]⟩)) ∧
      evaluate "x" ⟨[("x", .number 0)]⟩ =
        evaluate "x" ⟨[("x", .json (.string " ")), ("y", .json .null)]⟩ := by
  let w : Word := .name ⟨'x', [], rfl, nofun⟩
  let x : Token := ⟨.identifier "x", "x", ⟨0, 1⟩⟩
  have hx : Lexeme.Complete w.kind ['x'] ([] ++ []) := w.complete nofun
  have hcut : Cut [] 0 "x".toList [x] := .without_gap hx (.gap nofun)
  have htokens : tokenize (Text.normalize "x".toList) = .ok [x] := by
    rw [hcut.normalize_eq]
    exact tokenizeFrom_of_cut hcut rfl
  have hreads : Recognizer.Reads .expr [x] [] :=
    .expr (.unsigned (.identifier rfl nofun)) (.stop (avoids_nil _))
  obtain ⟨e, he⟩ : ∃ e, Expression.ofTokens? {} [x] = .ok e :=
    Expression.exists_ofTokens?_iff.mpr ⟨rfl, Recognizer.sentence_eq_ok_iff.mpr hreads⟩
  have hvalidate : validate "x" = .ok e := by
    rw [validate, if_neg (by decide), htokens]
    exact he
  have hvariables : e.variables = ["x"] := by
    rw [Expression.variables, Expression.tokens_of_ofTokens? he]
    rfl
  have hread : ∀ e', validate "x" = .ok e' → ∀ name ∈ e'.variables, name = "x" := by
    intro e' he' name hname
    obtain rfl : e = e' := Except.ok.inj (hvalidate.symm.trans he')
    rw [hvariables] at hname
    exact List.mem_singleton.mp hname
  obtain ⟨hindistinct, hequal⟩ := indistinct_of_standing_eq "x" {} ⟨[("x", .number 0)]⟩
    ⟨[("x", .json (.string " ")), ("y", .json .null)]⟩
    (fun e' he' name hname => by rw [hread e' he' name hname]; rfl)
  refine ⟨e, hvalidate, hvariables, hindistinct, hequal fun e' he' name hname => ?_⟩
  rw [hread e' he' name hname]
  rfl

end Report
end Reckon
