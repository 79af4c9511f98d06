import Reckon.Interpreter

/-! The recognizer and the interpreter as functions between plain token lists: the bounds on what is
left, by which both descents end, are forgotten. Each equation follows one rule of the grammar. -/
namespace Reckon

/-- What is left of a sequence, without the bound on its length. -/
def leftover {P : List Token → Prop} (r : Except Failure { ts // P ts }) :
    Except Failure (List Token) := r.map Subtype.val

/-- A value and what is left of a sequence, without the bound on its length. -/
def reached {α : Type} {P : List Token → Prop} (r : Except Failure (α × { ts // P ts })) :
    Except Failure (α × List Token) := r.map fun p => (p.1, p.2.val)

section
variable {α β : Type} {P Q : List Token → Prop}

theorem leftover_eq_ok_iff {r : Except Failure { ts // P ts }} {rest : List Token} :
    leftover r = .ok rest ↔ ∃ h, r = .ok ⟨rest, h⟩ := by
  constructor
  · intro h
    cases r with
    | error f => cases h
    | ok r =>
      cases h
      exact ⟨r.property, rfl⟩
  · rintro ⟨h, rfl⟩
    rfl

theorem length_lt_of_leftover {ts rest : List Token} {r : Except Failure (Shorter ts)}
    (h : leftover r = .ok rest) : rest.length < ts.length := (leftover_eq_ok_iff.mp h).1

theorem reached_eq_ok_iff {r : Except Failure (α × { ts // P ts })} {x : α} {rest : List Token} :
    reached r = .ok (x, rest) ↔ ∃ h, r = .ok (x, ⟨rest, h⟩) := by
  constructor
  · intro h
    cases r with
    | error f => cases h
    | ok r =>
      cases h
      exact ⟨r.2.property, rfl⟩
  · rintro ⟨h, rfl⟩
    rfl

theorem reached_eq_error_iff {r : Except Failure (α × { ts // P ts })} {f : Failure} :
    reached r = .error f ↔ r = .error f := by
  cases r <;> simp [reached, Except.map]

private theorem leftover_bind {x : Except Failure { ts // P ts }}
    {f : { ts // P ts } → Except Failure { ts // Q ts }}
    {g : List Token → Except Failure (List Token)} (h : ∀ r, leftover (f r) = g r.val) :
    leftover (x >>= f) = leftover x >>= g := by
  cases x with
  | error e => rfl
  | ok r => exact h r

private theorem leftover_weaken (x : Except Failure { ts // P ts })
    (h : ∀ r : { ts // P ts }, Q r.val) :
    leftover (x >>= fun r => pure (⟨r.val, h r⟩ : { ts // Q ts })) = leftover x := by
  cases x <;> rfl

private theorem reached_bind {x : Except Failure (α × { ts // P ts })}
    {f : α × { ts // P ts } → Except Failure (β × { ts // Q ts })}
    {g : α × List Token → Except Failure (β × List Token)}
    (h : ∀ a r, reached (f (a, r)) = g (a, r.val)) : reached (x >>= f) = reached x >>= g := by
  cases x with
  | error e => rfl
  | ok p => exact h p.1 p.2

private theorem reached_map (f : α → β) (x : Except Failure (α × { ts // P ts }))
    (h : ∀ p : α × { ts // P ts }, Q p.2.val) :
    reached (x >>= fun p => pure (f p.1, (⟨p.2.val, h p⟩ : { ts // Q ts }))) =
      (reached x).map fun p => (f p.1, p.2) := by
  cases x <;> rfl

private theorem reached_weaken (x : Except Failure (α × { ts // P ts }))
    (h : ∀ p : α × { ts // P ts }, Q p.2.val) :
    reached (x >>= fun p => pure (p.1, (⟨p.2.val, h p⟩ : { ts // Q ts }))) = reached x := by
  cases x <;> rfl

private theorem reached_close (y : β) (x : Except Failure { ts // P ts })
    (h : ∀ r : { ts // P ts }, Q r.val) :
    reached (x >>= fun r => pure (y, (⟨r.val, h r⟩ : { ts // Q ts }))) =
      (leftover x).map fun rest => (y, rest) := by
  cases x <;> rfl

end

namespace Recognizer
variable (finish : Nat) (opened : List Span)

theorem leftover_expr (ts : List Token) :
    leftover (expr finish opened ts) =
      leftover (term finish opened none ts) >>= fun mid =>
        leftover (operands finish opened mid) := by
  rw [expr]
  exact leftover_bind fun r => leftover_weaken _ _

theorem leftover_operands_nil : leftover (operands finish opened []) = .ok [] := by
  rw [operands]
  rfl

theorem leftover_operands_cons (t : Token) (ts : List Token) :
    leftover (operands finish opened (t :: ts)) =
      if (BinaryOp.ofKind? t.kind).isSome then
        leftover (term finish opened (some t) ts) >>= fun mid =>
          leftover (operands finish opened mid)
      else .ok (t :: ts) := by
  rw [operands]
  split
  · exact leftover_bind fun r => leftover_weaken _ _
  · rfl

theorem leftover_term_nil (operator : Option Token) :
    leftover (term finish opened operator []) = .error (endOfInput finish opened operator) := by
  rw [term, atom]
  rfl

theorem leftover_term_cons (operator : Option Token) (t : Token) (ts : List Token) :
    leftover (term finish opened operator (t :: ts)) =
      if t.isSign then leftover (atom finish opened (some t) ts)
      else leftover (atom finish opened operator (t :: ts)) := by
  rw [term]
  split
  · exact leftover_weaken _ _
  · rfl

theorem leftover_close_cons (opening : Span) (t : Token) (ts : List Token) :
    leftover (close opening (t :: ts)) =
      if t.is .closeParen then .ok ts else .error (unbalanced t.span) := by
  unfold close
  dsimp only
  split <;> rfl

theorem leftover_atom_nil (operator : Option Token) :
    leftover (atom finish opened operator []) = .error (endOfInput finish opened operator) := by
  rw [atom]
  rfl

theorem leftover_atom_cons (operator : Option Token) (t : Token) (ts : List Token) :
    leftover (atom finish opened operator (t :: ts)) =
      match t.kind with
      | .number _ => .ok ts
      | .identifier _ =>
        match ts with
        | dot :: ts' =>
          if t.isMath && dot.is .dot then leftover (call finish opened ts') else .ok (dot :: ts')
        | [] => .ok []
      | .symbol .openParen =>
        leftover (expr finish (t.span :: opened) ts) >>= fun mid => leftover (close t.span mid)
      | .symbol .closeParen | .symbol .comma =>
        if operator.isSome then .error (noOperand operator t.span) else .error (unexpected t)
      | _ => .error (unexpected t) := by
  rw [atom.eq_def]
  dsimp only
  cases t.kind with
  | number v => rfl
  | identifier n =>
    cases ts with
    | nil => rfl
    | cons dot ts =>
      dsimp only
      split
      · exact leftover_weaken _ _
      · rfl
  | symbol s =>
    cases s with
    | openParen => exact leftover_bind fun r => leftover_weaken _ _
    | closeParen | comma =>
      dsimp only
      split <;> rfl
    | _ => rfl

theorem leftover_call_nil :
    leftover (call finish opened []) = .error ⟨.malformed none, Span.point finish⟩ := by
  rw [call]
  rfl

theorem leftover_call_cons (t : Token) (ts : List Token) :
    leftover (call finish opened (t :: ts)) =
      match t.kind with
      | .identifier _ =>
        match ts with
        | [] => .ok []
        | opening :: ts' =>
          if opening.is .openParen then
            match ts' with
            | [] => .error (unbalanced opening.span)
            | t' :: ts'' =>
              if t'.is .closeParen then .ok ts''
              else leftover (arguments finish (opening.span :: opened) opening.span (t' :: ts''))
          else .ok (opening :: ts')
      | _ => .error (unexpected t) := by
  rw [call.eq_def]
  dsimp only
  cases t.kind with
  | identifier n =>
    cases ts with
    | nil => rfl
    | cons opening ts =>
      dsimp only
      split
      · cases ts with
        | nil => rfl
        | cons t' ts =>
          dsimp only
          split
          · rfl
          · exact leftover_weaken _ _
      · rfl
  | _ => rfl

theorem leftover_arguments (opening : Span) (ts : List Token) :
    leftover (arguments finish opened opening ts) =
      leftover (expr finish opened ts) >>= fun mid =>
        match mid with
        | [] => .error (unbalanced opening)
        | t :: mid =>
          if t.is .comma then leftover (arguments finish opened opening mid)
          else leftover (close opening (t :: mid)) := by
  rw [arguments]
  refine leftover_bind fun r => ?_
  obtain ⟨mid, h⟩ := r
  cases mid with
  | nil => rfl
  | cons t mid =>
    dsimp only
    split
    · exact leftover_weaken _ _
    · exact leftover_weaken _ _

end Recognizer

namespace Interpreter
variable (b : Bindings) (finish : Nat)

theorem reached_climb (min : Nat) (ts : List Token) :
    reached (climb b finish min ts) =
      reached (term b finish ts) >>= fun p => reached (climbFrom b finish min p.1 p.2) := by
  rw [climb]
  exact reached_bind fun x r => reached_weaken _ _

theorem reached_climbFrom_nil (min : Nat) (x : Float) :
    reached (climbFrom b finish min x []) = .ok (x, []) := by
  rw [climbFrom]
  rfl

theorem reached_climbFrom_cons (min : Nat) (x : Float) (t : Token) (ts : List Token) :
    reached (climbFrom b finish min x (t :: ts)) =
      match BinaryOp.ofKind? t.kind with
      | none => .ok (x, t :: ts)
      | some op =>
        if op.precedence < min then .ok (x, t :: ts)
        else reached (climb b finish (op.precedence + 1) ts) >>= fun p =>
          reached (climbFrom b finish min (op.apply x p.1) p.2) := by
  rw [climbFrom.eq_def]
  dsimp only
  cases BinaryOp.ofKind? t.kind with
  | none => rfl
  | some op =>
    dsimp only
    split
    · rfl
    · exact reached_bind fun y r => reached_weaken _ _

theorem reached_term_cons (t : Token) (ts : List Token) :
    reached (term b finish (t :: ts)) =
      if t.is .minus then (reached (atom b finish ts)).map fun p => (-p.1, p.2)
      else if t.is .plus then reached (atom b finish ts)
      else reached (atom b finish (t :: ts)) := by
  rw [term]
  split
  · exact reached_map (fun x => -x) _ _
  · split
    · exact reached_weaken _ _
    · rfl

theorem leftover_close_cons (t : Token) (ts : List Token) :
    leftover (close finish (t :: ts)) =
      if t.is .closeParen then .ok ts else .error (Recognizer.unbalanced t.span) := by
  unfold close
  dsimp only
  split <;> rfl

theorem reached_atom_cons (t : Token) (ts : List Token) :
    reached (atom b finish (t :: ts)) =
      match t.kind with
      | .number value => .ok (value, ts)
      | .identifier _ =>
        match ts with
        | dot :: ts' =>
          if t.isMath && dot.is .dot then reached (member b finish ts')
          else (Resolution.variableValue b t).map fun x => (x, dot :: ts')
        | [] => (Resolution.variableValue b t).map fun x => (x, [])
      | .symbol .openParen =>
        reached (climb b finish 0 ts) >>= fun p =>
          (leftover (close finish p.2)).map fun rest => (p.1, rest)
      | .symbol _ => .error (Recognizer.unexpected t) := by
  rw [atom.eq_def]
  dsimp only
  cases t.kind with
  | number v => rfl
  | identifier n =>
    cases ts with
    | nil => cases Resolution.variableValue b t <;> rfl
    | cons dot ts =>
      dsimp only
      split
      · exact reached_weaken _ _
      · cases Resolution.variableValue b t <;> rfl
  | symbol s =>
    cases s with
    | openParen => exact reached_bind fun x r => reached_close _ _ _
    | _ => rfl

theorem reached_member_cons (t : Token) (ts : List Token) :
    reached (member b finish (t :: ts)) =
      match ts with
      | opening :: ts' =>
        if opening.is .openParen then
          Resolution.callee t >>= fun f =>
            (reached (arguments b finish ts')).map fun p => (f.apply p.1, p.2)
        else (Resolution.constantValue t).map fun x => (x, opening :: ts')
      | [] => (Resolution.constantValue t).map fun x => (x, []) := by
  rw [member.eq_def]
  dsimp only
  cases ts with
  | nil => cases Resolution.constantValue t <;> rfl
  | cons opening ts =>
    dsimp only
    split
    · cases Resolution.callee t with
      | error f => rfl
      | ok f => exact reached_map (fun xs => f.apply xs) _ _
    · cases Resolution.constantValue t <;> rfl

theorem reached_arguments_cons (t : Token) (ts : List Token) :
    reached (arguments b finish (t :: ts)) =
      if t.is .closeParen then .ok ([], ts) else reached (argumentsFrom b finish (t :: ts)) := by
  rw [arguments]
  split <;> rfl

theorem reached_argumentsFrom (ts : List Token) :
    reached (argumentsFrom b finish ts) =
      reached (climb b finish 0 ts) >>= fun p =>
        match p.2 with
        | [] => .error (Recognizer.unbalanced (Span.point finish))
        | t :: mid =>
          if t.is .comma then
            (reached (argumentsFrom b finish mid)).map fun q => (p.1 :: q.1, q.2)
          else (leftover (close finish (t :: mid))).map fun rest => ([p.1], rest) := by
  rw [argumentsFrom]
  refine reached_bind fun x r => ?_
  obtain ⟨mid, h⟩ := r
  cases mid with
  | nil => rfl
  | cons t mid =>
    dsimp only
    split
    · exact reached_map (fun xs => x :: xs) _ _
    · exact reached_close _ _ _

end Interpreter

end Reckon
