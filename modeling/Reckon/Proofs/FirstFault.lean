import Reckon.Proofs.Fault

/-! The first fault of a token sequence. The recognizer takes tokens as long as some sentence goes
on with them, so that a failure lies at the first token that no sentence has there, or at the end of
the input. -/
namespace Reckon
open Grammar Token

theorem bind_eq_error_iff {ε α β : Type} {x : Except ε α} {f : α → Except ε β} {e : ε} :
    x >>= f = .error e ↔ x = .error e ∨ ∃ a, x = .ok a ∧ f a = .error e := by
  cases x with
  | error e' =>
    refine ⟨fun h => .inl (by cases h; rfl), ?_⟩
    rintro (h | ⟨a, ⟨⟩, -⟩)
    cases h
    rfl
  | ok a =>
    refine ⟨fun h => .inr ⟨a, rfl, h⟩, ?_⟩
    rintro (⟨⟨⟩⟩ | ⟨_, ⟨⟩, h⟩)
    exact h

namespace Recognizer

section
variable {finish : Nat}

mutual

private theorem breaks_expr : (ts : List Token) → {opened : List Span} → {previous : Option Token} →
    {f : Failure} → leftover (expr finish opened ts) = .error f → Awaits opened none previous →
    Breaks finish .expr opened previous ts f
  | ts, opened, previous, f, h, hprev => by
    rw [leftover_expr] at h
    obtain hfail | ⟨mid, hterm, hfail⟩ := bind_eq_error_iff.mp h
    · exact .expr_of_term (breaks_term ts hfail hprev)
    · have hmid := length_lt_of_leftover hterm
      obtain ⟨us, rfl, hus⟩ := (reads_term ts hterm).exists_takes
      exact .expr_of_operands hus (breaks_operands mid hfail)
termination_by ts => (ts.length, 3)

private theorem breaks_operands : (ts : List Token) → {opened : List Span} →
    {previous : Option Token} → {f : Failure} → leftover (operands finish opened ts) = .error f →
    Breaks finish .operands opened previous ts f
  | [], opened, previous, f, h => by
    rw [leftover_operands_nil] at h
    cases h
  | t :: ts, opened, previous, f, h => by
    rw [leftover_operands_cons] at h
    split at h
    · next hop =>
      obtain ⟨op, hmem, hk⟩ := BinaryOp.isSome_ofKind?_iff.mp hop
      have hawaits : Awaits opened (some t) (some t) :=
        awaits_operator opened (by simp [isOperator, hop])
      obtain hfail | ⟨mid, hterm, hfail⟩ := bind_eq_error_iff.mp h
      · exact .operands_of_term hmem hk (breaks_term ts hfail hawaits)
      · have hmid := length_lt_of_leftover hterm
        obtain ⟨us, rfl, hus⟩ := (reads_term ts hterm).exists_takes
        exact .operands_of_operands hmem hk hus (breaks_operands mid hfail)
    · cases h
termination_by ts => (ts.length, 0)

private theorem breaks_term : (ts : List Token) → {opened : List Span} →
    {operator previous : Option Token} → {f : Failure} →
    leftover (term finish opened operator ts) = .error f → Awaits opened operator previous →
    Breaks finish .term opened previous ts f
  | [], opened, operator, previous, f, h, hprev => by
    rw [leftover_term_nil] at h
    cases h
    rw [← faultAtEnd_of_awaits hprev]
    exact .nil hprev.waits
  | t :: ts, opened, operator, previous, f, h, hprev => by
    rw [leftover_term_cons] at h
    split at h
    · next hs =>
      obtain ⟨sign, hmem, hk⟩ := isSign_iff.mp hs
      have hawaits : Awaits opened (some t) (some t) :=
        awaits_operator opened (by simp [isOperator, hs])
      exact .term_of_signed hmem hk (breaks_atom ts h hawaits)
    · next hs => exact .term_of_atom (Bool.eq_false_iff.mpr hs) (breaks_atom (t :: ts) h hprev)
termination_by ts => (ts.length, 2)

private theorem breaks_atom : (ts : List Token) → {opened : List Span} →
    {operator previous : Option Token} → {f : Failure} →
    leftover (atom finish opened operator ts) = .error f → Awaits opened operator previous →
    Breaks finish .atom opened previous ts f
  | [], opened, operator, previous, f, h, hprev => by
    rw [leftover_atom_nil] at h
    cases h
    rw [← faultAtEnd_of_awaits hprev]
    exact .nil hprev.waits
  | t :: ts, opened, operator, previous, f, h, hprev => by
    cases hk : t.kind with
    | number value =>
      rw [leftover_atom_cons, hk] at h
      cases h
    | identifier name =>
      rw [leftover_atom_cons, hk] at h
      dsimp only at h
      split at h
      · next dot ts =>
        split at h
        · next hmath =>
          rw [Bool.and_eq_true, isMath_iff, is_iff] at hmath
          exact .atom_of_call hmath.1 hmath.2 (breaks_call ts h hmath.2)
        · cases h
      · cases h
    | symbol s =>
      by_cases hs : s = .openParen
      · subst hs
        rw [leftover_atom_cons, hk] at h
        obtain hfail | ⟨mid, hexpr, hfail⟩ := bind_eq_error_iff.mp h
        · exact .atom_of_expr hk (breaks_expr ts hfail (awaits_separator _ _ (.inl hk)))
        · obtain ⟨us, rfl, hus⟩ := (reads_expr ts hexpr).exists_takes
          exact .atom_of_close hk hus hfail
      · rw [leftover_atom_symbol hk hs] at h
        cases h
        exact .noOperand hk hs hprev ts
termination_by ts => (ts.length, 1)

private theorem breaks_call : (ts : List Token) → {opened : List Span} → {dot : Token} →
    {f : Failure} → leftover (call finish opened ts) = .error f → dot.kind = .symbol .dot →
    Breaks finish .call opened (some dot) ts f
  | [], opened, dot, f, h, hdot => by
    rw [leftover_call_nil] at h
    cases h
    rw [← faultAtEnd_of_dot hdot finish opened]
    refine .nil ?_
    rintro _ ⟨⟩
    exact .inr (.inl (is_iff.mpr hdot))
  | t :: ts, opened, dot, f, h, hdot => by
    rw [leftover_call_cons] at h
    split at h
    · next name hk =>
      split at h
      · cases h
      · next opening ts =>
        split at h
        · next hopen =>
          have hopening := is_iff.mp hopen
          have hawaits : Awaits (opening.span :: opened) none (some opening) :=
            awaits_separator _ _ (.inl hopening)
          split at h
          · cases h
            have hfault : faultAtEnd finish (opening.span :: opened) (some opening) =
                unbalanced opening.span := faultAtEnd_of_awaits hawaits finish
            rw [← hfault]
            exact .call_of_arguments hk hopening (avoids_nil _) (.nil hawaits.waits)
          · next t' ts =>
            split at h
            · cases h
            · next hclose =>
              exact .call_of_arguments hk hopening (avoids_of_not_is hclose ts)
                (breaks_arguments (t' :: ts) h hawaits)
        · cases h
    · next hname =>
      cases h
      exact .call_of_name hdot hname ts
termination_by ts => (ts.length, 0)

private theorem breaks_arguments : (ts : List Token) → {opening : Span} → {outside : List Span} →
    {previous : Option Token} → {f : Failure} →
    leftover (arguments finish (opening :: outside) opening ts) = .error f →
    Awaits (opening :: outside) none previous →
    Breaks finish .arguments (opening :: outside) previous ts f
  | ts, opening, outside, previous, f, h, hprev => by
    rw [leftover_arguments] at h
    obtain hfail | ⟨mid, hexpr, hfail⟩ := bind_eq_error_iff.mp h
    · exact .arguments_of_expr (breaks_expr ts hfail hprev)
    · have hmid := length_lt_of_leftover hexpr
      obtain ⟨us, rfl, hus⟩ := (reads_expr ts hexpr).exists_takes
      split at hfail
      · exact .arguments_of_close hus (avoids_nil _) hfail
      · next t mid =>
        split at hfail
        · next hcomma =>
          have hk := is_iff.mp hcomma
          have hlt : mid.length < (us ++ t :: mid).length := Nat.lt_of_succ_lt hmid
          exact .arguments_of_arguments hus hk
            (breaks_arguments mid hfail (awaits_separator _ _ (.inr hk)))
        · next hcomma =>
          exact .arguments_of_close hus (avoids_of_not_is hcomma mid) hfail
termination_by ts => (ts.length, 4)

end

end

/-- A token with which nothing is read to the end is not the next one of a sentence. -/
theorem not_viable {used : List Token} {t : Token}
    (h : ∀ after, ¬ Reads .expr (used ++ t :: after) []) :
    ¬ Viable ((used ++ [t]).map (·.kind)) := by
  rintro ⟨ls, hd⟩
  let after : List Token := ls.map (⟨·, "", Span.point 0⟩)
  have hkinds : (used ++ t :: after).map (·.kind) = (used ++ [t]).map (·.kind) ++ ls := by
    simp [after, Function.comp_def]
  have hreads : Reads .expr ((used ++ t :: after) ++ []) [] := hd.reads hkinds (avoids_nil _)
  rw [List.append_nil] at hreads
  exact h after hreads

theorem sentence_eq_leftover (ts : List Token) :
    sentence ts = leftover (expr (finish ts) [] ts) >>= fun rest =>
      match rest with
      | [] => .ok ()
      | t :: rest =>
        .error ⟨.trailing (joinLexemes (t :: rest)),
          t.span.merge ((t :: rest).getLast (List.cons_ne_nil _ _)).span⟩ := by
  unfold sentence
  cases expr (finish ts) [] ts with
  | error f => rfl
  | ok r =>
    obtain ⟨rest, h⟩ := r
    cases rest <;> rfl

/-- A refused sequence is refused at the first token that no sentence has there, or at its end.
Unless more tokens have to come there, the tokens before are an expression. -/
theorem exists_fault_of_error {ts : List Token} {f : Failure} (h : sentence ts = .error f) :
    (∃ used t after, ts = used ++ t :: after ∧ Viable (used.map (·.kind)) ∧
      ¬ Viable ((used ++ [t]).map (·.kind)) ∧
      f = faultAt (unclosed used) used.getLast? t after ∧
      (Waits (unclosed used) used.getLast? ∨ Reads .expr ts (t :: after))) ∨
    Viable (ts.map (·.kind)) ∧ f = faultAtEnd (finish ts) (unclosed ts) ts.getLast? ∧
      Waits (unclosed ts) ts.getLast? := by
  rw [sentence_eq_leftover] at h
  obtain hexpr | ⟨rest, hexpr, hrest⟩ := bind_eq_error_iff.mp h
  · cases breaks_expr ts hexpr awaits_start with
    | @atToken used t after hused hwaits hblocked =>
      rw [last, Option.or_none] at hwaits ⊢
      refine .inl ⟨used, t, after, rfl, hused, not_viable fun after' hread => ?_, rfl, .inl hwaits⟩
      exact hblocked after' ⟨[], hread⟩
    | atEnd hts hwaits =>
      rw [last, Option.or_none] at hwaits ⊢
      exact .inr ⟨hts, rfl, hwaits⟩
  · cases rest with
    | nil => cases hrest
    | cons t after =>
      cases hrest
      have hreads := reads_expr ts hexpr
      obtain ⟨used, rfl, hused⟩ := hreads.exists_takes
      refine .inl ⟨used, t, after, rfl, ⟨[], by simpa using hused.derives⟩,
        not_viable fun after' hread => ?_, ?_, .inr hreads⟩
      · cases (hused.reads (t :: after') rfl).unique hread (by simp)
      · obtain ⟨init, p, rfl, hend⟩ := hused.exists_last
        have hopen : unclosed (init ++ [p]) = [] := hused.open_eq []
        rw [hopen, List.getLast?_concat]
        simp [faultAt, not_operator_of_endsOperand hend, hend]

/-- A sequence that some sentence goes on with is refused at its end, as more tokens have to come
there. -/
theorem sentence_eq_faultAtEnd {ts : List Token} (hviable : Viable (ts.map (·.kind)))
    (hnot : ¬ Derives .expr (ts.map (·.kind))) :
    sentence ts = .error (faultAtEnd (finish ts) (unclosed ts) ts.getLast?) ∧
      Waits (unclosed ts) ts.getLast? := by
  cases hs : sentence ts with
  | ok => exact absurd (sentence_eq_ok_iff_derives.mp hs) hnot
  | error f =>
    obtain ⟨used, t, after, rfl, -, h, -⟩ | ⟨-, rfl, hwaits⟩ := exists_fault_of_error hs
    · have hp : used ++ [t] <+: used ++ t :: after := ⟨after, by simp⟩
      exact absurd (hviable.of_prefix (hp.map _)) h
    · exact ⟨rfl, hwaits⟩

/-- The longest front of a sequence with which a sentence starts has this length. -/
structure LongestViable (ts : List Token) (k : Nat) : Prop where
  viable : Viable ((ts.take k).map (·.kind))
  longest : ∀ j ≤ ts.length, Viable ((ts.take j).map (·.kind)) → j ≤ k

/-- With the next token, a sentence no longer starts so. -/
theorem LongestViable.eq_length {used after : List Token} {t : Token} {k : Nat}
    (hk : LongestViable (used ++ t :: after) k) (hused : Viable (used.map (·.kind)))
    (hnot : ¬ Viable ((used ++ [t]).map (·.kind))) : k = used.length := by
  have hle : used.length ≤ k := hk.longest _ (by simp) (by rwa [List.take_left])
  obtain hlt | hge := Nat.lt_or_ge used.length k
  · have hfront : used ++ [t] <+: (used ++ t :: after).take k := by
      rw [List.prefix_take_iff]
      exact ⟨⟨after, by simp⟩, by rw [List.length_append, List.length_singleton]; exact hlt⟩
    exact absurd (hk.viable.of_prefix (hfront.map _)) hnot
  · exact Nat.le_antisymm hge hle

end Recognizer

namespace Expression
open Recognizer

end Expression

end Reckon
