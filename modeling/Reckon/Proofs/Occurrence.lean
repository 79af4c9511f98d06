import Reckon.Proofs.Tree.Value

/-! The names of an expression, in the order of its tokens. An expression has a value exactly if
each of them resolves where it stands; otherwise the first one that does not is the failure. -/
namespace Reckon
open Token

/-- What an expression asks of a name. -/
inductive Use where
  /-- The value of a variable. -/
  | read
  /-- A member of `Math` without a call. -/
  | bare
  /-- A member of `Math` that is called. -/
  | called
deriving DecidableEq, Repr

structure Occurrence where
  name : Token
  use : Use

namespace Occurrence

/-- Why the name does not resolve, if it does not: a variable has to be bound to something that
stands for a finite number; a member has to be there, as a function exactly if it is called. -/
def cause? (b : Bindings) (o : Occurrence) : Option Cause :=
  let name := o.name.lexeme
  match o.use with
  | .read =>
    match b.get? name with
    | none => some (.undefinedVariable name)
    | some v => if v.number?.isSome then none else some (.notANumber name)
  | .bare =>
    match Math.member? name with
    | none => some (.undefinedMember name)
    | some (.function _) => some (.notCallable name)
    | some (.constant _) => none
  | .called =>
    match Math.member? name with
    | none => some (.undefinedMember name)
    | some (.constant _) => some (.notCallable name)
    | some (.function _) => none

def failure? (b : Bindings) (o : Occurrence) : Option Failure := (o.cause? b).map (⟨·, o.name.span⟩)

theorem failure?_eq_none_iff {b : Bindings} {o : Occurrence} :
    o.failure? b = none ↔ o.cause? b = none := Option.map_eq_none_iff

theorem failure?_eq_some_iff {b : Bindings} {o : Occurrence} {f : Failure} :
    o.failure? b = some f ↔ o.cause? b = some f.cause ∧ f.span = o.name.span := by
  rw [failure?, Option.map_eq_some_iff]
  constructor
  · rintro ⟨c, hc, rfl⟩
    exact ⟨hc, rfl⟩
  · rintro ⟨hc, hspan⟩
    exact ⟨f.cause, hc, by rw [← hspan]⟩

end Occurrence

namespace Token

def startsWith (s : Symbol) (ts : List Token) : Bool := ts.head?.any (·.is s)

/-- The names in a sequence of tokens, which may stand behind a dot. A name behind a dot is a
member; any other is a variable, but for a `Math` before a dot. -/
def occurrences (behindDot : Bool) : List Token → List Occurrence
  | [] => []
  | t :: ts =>
    match t.kind with
    | .identifier _ =>
      if behindDot then
        ⟨t, if startsWith .openParen ts then .called else .bare⟩ :: occurrences false ts
      else if t.isMath && startsWith .dot ts then occurrences false ts
      else ⟨t, .read⟩ :: occurrences false ts
    | _ => occurrences (t.is .dot) ts

theorem startsWith_cons (s : Symbol) (t : Token) (ts : List Token) :
    startsWith s (t :: ts) = t.is s := rfl

theorem startsWith_eq_false {ss : List Symbol} {s : Symbol} {ts : List Token} (h : Avoids ss ts)
    (hs : s ∈ ss) : startsWith s ts = false := by
  cases ts with
  | nil => rfl
  | cons t ts => exact is_eq_false_iff.mpr (avoids_cons.mp h s hs)

theorem occurrences_symbol {t : Token} {s : Symbol} (hk : t.kind = .symbol s) (behindDot : Bool)
    (ts : List Token) : occurrences behindDot (t :: ts) = occurrences (s == .dot) ts := by
  rw [occurrences, hk, is_of_kind hk]

private theorem occurrences_number {t : Token} {x : Float} (hk : t.kind = .number x)
    (ts : List Token) :
    occurrences false (t :: ts) = occurrences false ts := by
  have hdot : t.is .dot = false := is_eq_false_iff.mpr (by simp [hk])
  rw [occurrences, hk, hdot]

theorem occurrences_of_ne_dot {t : Token} {s : Symbol} (hk : t.kind = .symbol s) (hs : s ≠ .dot)
    (behindDot : Bool) (ts : List Token) :
    occurrences behindDot (t :: ts) = occurrences false ts := by
  rw [occurrences_symbol hk, beq_false_of_ne hs]

private theorem occurrences_var {t : Token} {name : String} (hk : t.kind = .identifier name)
    {ts : List Token} (h : Avoids [.dot] ts) :
    occurrences false (t :: ts) = ⟨t, .read⟩ :: occurrences false ts := by
  have hdot : startsWith .dot ts = false := startsWith_eq_false h (List.mem_singleton_self _)
  simp [occurrences, hk, hdot]

theorem occurrences_math {t dot : Token} (hk : t.kind = .identifier "Math")
    (hdot : dot.kind = .symbol .dot) (ts : List Token) :
    occurrences false (t :: dot :: ts) = occurrences true ts := by
  have hmath : (t.isMath && startsWith .dot (dot :: ts)) = true := by
    rw [startsWith_cons, isMath_iff.mpr hk, is_iff.mpr hdot]
    rfl
  rw [occurrences, hk]
  simp only [hmath, if_true, Bool.false_eq_true, if_false]
  exact occurrences_symbol hdot false ts

private theorem occurrences_bare {t : Token} {name : String} (hk : t.kind = .identifier name)
    {ts : List Token} (h : Avoids [.openParen] ts) :
    occurrences true (t :: ts) = ⟨t, .bare⟩ :: occurrences false ts := by
  have hopen : startsWith .openParen ts = false := startsWith_eq_false h (List.mem_singleton_self _)
  simp [occurrences, hk, hopen]

private theorem occurrences_called {t opening : Token} {name : String}
    (hk : t.kind = .identifier name) (hopen : opening.kind = .symbol .openParen)
    (ts : List Token) :
    occurrences true (t :: opening :: ts) = ⟨t, .called⟩ :: occurrences false ts := by
  have hcall : startsWith .openParen (opening :: ts) = true := is_iff.mpr hopen
  rw [occurrences, hk]
  simp only [hcall, if_true]
  rw [occurrences_symbol hopen]
  rfl

end Token

namespace Tree

mutual

def names : Tree → List Occurrence
  | .number _ => []
  | .var name => [⟨name, .read⟩]
  | .constant name => [⟨name, .bare⟩]
  | .call name args => ⟨name, .called⟩ :: namesOf args
  | .group e => e.names
  | .signed _ e => e.names
  | .binary _ l r => l.names ++ r.names

def namesOf : List Tree → List Occurrence
  | [] => []
  | e :: es => e.names ++ namesOf es

end

end Tree

def failureOf {α : Type} : Except Failure α → Option Failure
  | .ok _ => none
  | .error f => some f

theorem failureOf_eq_some_iff {α : Type} {r : Except Failure α} {f : Failure} :
    failureOf r = some f ↔ r = .error f := by
  cases r <;> simp [failureOf]

theorem failureOf_eq_none_iff {α : Type} {r : Except Failure α} :
    failureOf r = none ↔ ∃ x, r = .ok x := by
  cases r <;> simp [failureOf]

/-- Where the failure of the second computation does not depend on the result of the first. -/
theorem failureOf_bind {α β : Type} {r : Except Failure α} {k : α → Except Failure β}
    {o : Option Failure} (h : ∀ a, failureOf (k a) = o) :
    failureOf (r >>= k) = (failureOf r).or o := by
  cases r with
  | error f => rfl
  | ok a => exact h a

theorem failureOf_bind_pure {α β : Type} (r : Except Failure α) (g : α → β) :
    failureOf (r >>= fun a => pure (g a)) = failureOf r := by
  cases r <;> rfl

namespace Resolution

theorem failureOf_variableValue (b : Bindings) (name : Token) :
    failureOf (variableValue b name) = Occurrence.failure? b ⟨name, .read⟩ := by
  unfold Occurrence.failure? Occurrence.cause?
  rw [variableValue_eq]
  dsimp only
  cases b.get? name.lexeme with
  | none => rfl
  | some v =>
    dsimp only
    cases v.number? <;> rfl

theorem failureOf_constantValue (b : Bindings) (name : Token) :
    failureOf (constantValue name) = Occurrence.failure? b ⟨name, .bare⟩ := by
  unfold Occurrence.failure? Occurrence.cause?
  rw [constantValue, constantNamed, ofToken_memberNamed]
  dsimp only
  cases Math.member? name.lexeme with
  | none => rfl
  | some m => cases m <;> rfl

theorem failureOf_callee (b : Bindings) (name : Token) :
    failureOf (callee name) = Occurrence.failure? b ⟨name, .called⟩ := by
  unfold Occurrence.failure? Occurrence.cause?
  rw [callee, functionNamed, ofToken_memberNamed]
  dsimp only
  cases Math.member? name.lexeme with
  | none => rfl
  | some m => cases m <;> rfl

end Resolution

namespace Tree
variable (b : Bindings)

mutual

/-- Evaluation fails with the first of its names that does not resolve. -/
theorem failureOf_value : (e : Tree) →
    failureOf (e.value b) = e.names.findSome? (·.failure? b)
  | .number x => rfl
  | .var name => by
    rw [value, names, List.findSome?_singleton, Resolution.failureOf_variableValue]
  | .constant name => by
    rw [value, names, List.findSome?_singleton, Resolution.failureOf_constantValue b]
  | .call name args => by
    have hargs (f : Math.Function) : failureOf (values b args >>= fun xs => pure (f.apply xs)) =
        (namesOf args).findSome? (·.failure? b) :=
      (failureOf_bind_pure ..).trans (failureOf_values args)
    rw [value, names, List.findSome?_cons]
    refine (failureOf_bind hargs).trans ?_
    rw [Resolution.failureOf_callee b]
    cases Occurrence.failure? b ⟨name, .called⟩ <;> rfl
  | .group e => by
    rw [value, names]
    exact failureOf_value e
  | .signed negative e => by
    rw [value, names]
    exact (failureOf_bind_pure ..).trans (failureOf_value e)
  | .binary op l r => by
    have hright (x : Float) : failureOf (r.value b >>= fun y => pure (op.arithmetic x y)) =
        r.names.findSome? (·.failure? b) :=
      (failureOf_bind_pure ..).trans (failureOf_value r)
    rw [value, names, List.findSome?_append, ← failureOf_value l]
    exact failureOf_bind hright

theorem failureOf_values : (es : List Tree) →
    failureOf (values b es) = (namesOf es).findSome? (·.failure? b)
  | [] => rfl
  | e :: es => by
    have hrest (x : Float) : failureOf (values b es >>= fun xs => pure (x :: xs)) =
        (namesOf es).findSome? (·.failure? b) :=
      (failureOf_bind_pure ..).trans (failureOf_values es)
    rw [values, namesOf, List.findSome?_append, ← failureOf_value e]
    exact failureOf_bind hrest

end

end Tree

namespace Phrase

/-- The names of a phrase are those of its tree, in the same order. -/
def Names : Phrase → List Token → List Token → Prop
  | .chain _ e, ks, rest | .term e, ks, rest | .atom e, ks, rest =>
    occurrences false (ks ++ rest) = e.names ++ occurrences false rest
  | .operands _ left e, ks, rest =>
    left.names ++ occurrences false (ks ++ rest) = e.names ++ occurrences false rest
  | .member e, ks, rest => occurrences true (ks ++ rest) = e.names ++ occurrences false rest
  | .arguments es, ks, rest =>
    occurrences false (ks ++ rest) = Tree.namesOf es ++ occurrences false rest

theorem Names.operand {l : Level} {e : Tree} {ks rest : List Token}
    (h : Names (l.operand e) ks rest) :
    occurrences false (ks ++ rest) = e.names ++ occurrences false rest := by
  cases l <;> exact h

theorem Spells.avoids_afterTerm {l : Level} {left e : Tree} {ks rest : List Token}
    (h : Spells (.operands l left e) ks) (hrest : Avoids afterTerm rest) :
    Avoids afterTerm (ks ++ rest) := by
  cases h with
  | noOperand => exact hrest
  | operand hs hk =>
    refine avoids_of_kind _ hk fun hmem => (Level.mem_afterChain hs).2 ?_
    exact List.mem_append_right _ hmem

theorem Spells.names {p : Phrase} {ks : List Token} (h : Spells p ks) {rest : List Token}
    (hrest : Avoids afterTerm rest) : Names p ks rest := by
  induction h generalizing rest with
  | @chain l a e ks ls _ hls iha ihs =>
    have ha := (iha (hls.avoids_afterTerm hrest)).operand
    have hs : a.names ++ occurrences false (ls ++ rest) = _ := ihs hrest
    show occurrences false (ks ++ ls ++ rest) = _
    rw [List.append_assoc, ha, hs]
  | noOperand => exact rfl
  | @operand l t s op left a e ks ls hs hk _ hls iha ihs =>
    have ha := (iha (hls.avoids_afterTerm hrest)).operand
    have htail : (Tree.binary op left a).names ++ occurrences false (ls ++ rest) = _ := ihs hrest
    show left.names ++ occurrences false (t :: (ks ++ ls ++ rest)) = _
    rw [occurrences_of_ne_dot hk (ne_dot_of_operator hs), List.append_assoc, ha, ← htail,
      Tree.names, List.append_assoc]
  | unsigned _ ih => exact ih hrest
  | @signed t s negative e ks hs hk _ ih =>
    have he : occurrences false (ks ++ rest) = _ := ih hrest
    show occurrences false (t :: (ks ++ rest)) = _
    rw [occurrences_of_ne_dot hk (ne_dot_of_sign hs), he, Tree.names]
  | number hk => exact occurrences_number hk rest
  | var hk => exact occurrences_var hk (hrest.mono (by decide))
  | @group opening e ks close hk _ hclose ih =>
    have he : occurrences false (ks ++ close :: rest) = _ :=
      ih (avoids_of_kind _ hclose (by decide))
    show occurrences false (opening :: (ks ++ [close] ++ rest)) = _
    rw [occurrences_symbol hk, List.append_assoc]
    exact he.trans (congrArg _ (occurrences_symbol hclose ..))
  | @member t dot e ks hk hdot _ ih =>
    show occurrences false (t :: dot :: (ks ++ rest)) = _
    rw [occurrences_math hk hdot]
    exact ih hrest
  | constant hk => exact occurrences_bare hk (hrest.mono (by decide))
  | @noArgument t name opening close hk hopen hclose =>
    show occurrences true (t :: opening :: close :: rest) = _
    rw [occurrences_called hk hopen, occurrences_symbol hclose]
    rfl
  | @call t name opening es ks close hk hopen _ hclose ih =>
    have hes : occurrences false (ks ++ close :: rest) = _ :=
      ih (avoids_of_kind _ hclose (by decide))
    show occurrences true (t :: opening :: (ks ++ [close] ++ rest)) = _
    rw [occurrences_called hk hopen, List.append_assoc, List.singleton_append, hes,
      occurrences_symbol hclose]
    rfl
  | @argument e ks _ ih =>
    have he : occurrences false (ks ++ rest) = _ := ih hrest
    show occurrences false (ks ++ rest) = _
    rw [he, Tree.namesOf, Tree.namesOf, List.append_nil]
  | @moreArguments e ks comma es ls _ hcomma _ ihe ihs =>
    have he : occurrences false (ks ++ comma :: (ls ++ rest)) = _ :=
      ihe (avoids_of_kind _ hcomma (by decide))
    have hs : occurrences false (ls ++ rest) = _ := ihs hrest
    show occurrences false (ks ++ comma :: ls ++ rest) = _
    rw [List.append_assoc, List.cons_append, he, occurrences_symbol hcomma]
    show _ ++ occurrences false (ls ++ rest) = _
    rw [hs, Tree.namesOf, List.append_assoc]

end Phrase

namespace Expression

/-- The failure of an expression is that of the first of its names that does not resolve. -/
theorem failureOf_value (e : Expression) (b : Bindings) :
    failureOf (e.value b) = (occurrences false e.tokens).findSome? (·.failure? b) := by
  obtain ⟨tree, hspells, hvalue⟩ := e.exists_tree
  have hnames : occurrences false (e.tokens ++ []) = tree.names ++ [] :=
    hspells.names (avoids_nil _)
  rw [List.append_nil, List.append_nil] at hnames
  rw [hvalue, hnames, tree.failureOf_value]

/-- An expression has a value exactly if each of its names resolves. Otherwise the first name that
does not is the failure, with its lexeme and its span, however the operators and the parentheses
around it are evaluated. -/
theorem value_fails_at_first_unresolved (e : Expression) (b : Bindings) :
    ((∃ x, e.value b = .ok x) ↔ ∀ o ∈ occurrences false e.tokens, o.cause? b = none) ∧
      ∀ f, e.value b = .error f ↔ ∃ before o after,
        occurrences false e.tokens = before ++ o :: after ∧ (∀ p ∈ before, p.cause? b = none) ∧
          o.cause? b = some f.cause ∧ f.span = o.name.span := by
  constructor
  · rw [← failureOf_eq_none_iff, failureOf_value, List.findSome?_eq_none_iff]
    simp only [Occurrence.failure?, Option.map_eq_none_iff]
  · intro f
    rw [← failureOf_eq_some_iff, failureOf_value, List.findSome?_eq_some_iff]
    simp only [Occurrence.failure?_eq_some_iff, Occurrence.failure?_eq_none_iff]
    constructor
    · rintro ⟨before, o, after, heq, ⟨hcause, hspan⟩, hbefore⟩
      exact ⟨before, o, after, heq, hbefore, hcause, hspan⟩
    · rintro ⟨before, o, after, heq, hbefore, hcause, hspan⟩
      exact ⟨before, o, after, heq, ⟨hcause, hspan⟩, hbefore⟩

end Expression
end Reckon
