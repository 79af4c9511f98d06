import Reckon.Proofs.Reading

/-! Which token sequences are expressions: those that the grammar derives and whose parentheses
nest no deeper than the limits allow. -/
namespace Reckon
open Grammar Token

/-- What stands before the part of a phrase that the recognizer reads along a rule. -/
def Rule.lead : Rule → List TokenKind
  | .call => [.identifier "Math", .symbol .dot]
  | _ => []

def Rule.successors : Rule → List Symbol
  | .term | .atom | .call => [.dot, .openParen]
  | .expr | .operands | .arguments => .dot :: .openParen :: binaryOperators

namespace Recognizer

/-- Whatever is read along a rule is derived by it. -/
theorem Reads.exists_derives {rule : Rule} {ts rest : List Token} (h : Reads rule ts rest) :
    ∃ used, ts = used ++ rest ∧ Derives rule (rule.lead ++ used.map (·.kind)) := by
  induction h with
  | expr _ _ hterm hops =>
    obtain ⟨us, rfl, hu⟩ := hterm
    obtain ⟨vs, rfl, hv⟩ := hops
    refine ⟨us ++ vs, (List.append_assoc ..).symm, ?_⟩
    rw [List.map_append]
    change Derives .expr (us.map (·.kind) ++ vs.map (·.kind))
    exact .expr hu hv
  | stop => exact ⟨[], rfl, .noOperand⟩
  | @operand t op ts mid rest hmem hk _ _ hterm hops =>
    obtain ⟨us, rfl, hu⟩ := hterm
    obtain ⟨vs, rfl, hv⟩ := hops
    refine ⟨t :: (us ++ vs), by simp, ?_⟩
    rw [List.map_cons, List.map_append, hk]
    exact .operand hmem hu hv
  | unsigned _ hatom =>
    obtain ⟨us, rfl, hu⟩ := hatom
    exact ⟨us, rfl, .unsigned hu⟩
  | @signed t sign ts rest hmem hk _ hatom =>
    obtain ⟨us, rfl, hu⟩ := hatom
    refine ⟨t :: us, rfl, ?_⟩
    rw [List.map_cons, hk]
    exact .signed hmem hu
  | @number t value ts hk =>
    refine ⟨[t], rfl, ?_⟩
    rw [List.map_singleton, hk]
    exact .number value
  | @identifier t name ts hk =>
    refine ⟨[t], rfl, ?_⟩
    rw [List.map_singleton, hk]
    exact .identifier name
  | @call t dot ts rest hk hdot _ hcall =>
    obtain ⟨us, rfl, hu⟩ := hcall
    refine ⟨t :: dot :: us, rfl, ?_⟩
    rw [List.map_cons, List.map_cons, hk, hdot]
    exact .call hu
  | @group t ts close rest hk _ hclose hexpr =>
    obtain ⟨us, rfl, hu⟩ := hexpr
    refine ⟨t :: (us ++ [close]), by simp, ?_⟩
    rw [List.map_cons, List.map_append, List.map_singleton, hk, hclose]
    exact .group hu
  | @bare t name ts hk =>
    refine ⟨[t], rfl, ?_⟩
    rw [List.map_singleton, hk]
    exact .bare name
  | @noArgument t name opening close ts hk hopen hclose =>
    refine ⟨[t, opening, close], rfl, ?_⟩
    rw [List.map_cons, List.map_cons, List.map_singleton, hk, hopen, hclose]
    exact .noArgument name
  | @called t name opening ts close rest hk hopen _ hclose hargs =>
    obtain ⟨us, rfl, hu⟩ := hargs
    refine ⟨t :: opening :: (us ++ [close]), by simp, ?_⟩
    rw [List.map_cons, List.map_cons, List.map_append, List.map_singleton, hk, hopen, hclose]
    exact .called name hu
  | argument _ hexpr =>
    obtain ⟨us, rfl, hu⟩ := hexpr
    exact ⟨us, rfl, .argument hu⟩
  | @moreArguments ts comma mid rest _ hcomma _ hexpr hargs =>
    obtain ⟨us, rfl, hu⟩ := hexpr
    obtain ⟨vs, rfl, hv⟩ := hargs
    refine ⟨us ++ comma :: vs, by simp, ?_⟩
    rw [List.map_append, List.map_cons, hcomma]
    exact .moreArguments hu hv

end Recognizer

/-- Further operands are told apart from the operand before them. -/
theorem Grammar.Derives.avoids_operands {ks : List TokenKind} (h : Derives .operands ks)
    {ts rest : List Token} (hts : ts.map (·.kind) = ks) (hrest : Avoids [.dot, .openParen] rest) :
    Avoids [.dot, .openParen] (ts ++ rest) := by
  cases h with
  | noOperand =>
    rw [List.map_eq_nil_iff.mp hts]
    exact hrest
  | @operand op _ _ hmem =>
    obtain ⟨t, us, rfl, hk, -⟩ := List.map_eq_cons_iff.mp hts
    refine avoids_cons.mpr fun s hs heq => ?_
    rw [hk] at heq
    cases heq
    revert hmem hs
    cases op <;> decide

theorem Grammar.Derives.exists_lead {ks : List TokenKind} (h : Derives .call ks) :
    ∃ ls, ks = Rule.call.lead ++ ls := by
  cases h <;> exact ⟨_, rfl⟩

/-- Whatever a rule derives is read along it, unless what follows could go on with it. -/
theorem Grammar.Derives.reads {rule : Rule} {ks : List TokenKind} (h : Derives rule ks) :
    ∀ {ts rest : List Token}, rule.lead ++ ts.map (·.kind) = ks → Avoids rule.successors rest →
      Recognizer.Reads rule (ts ++ rest) rest := by
  induction h with
  | expr _ hls hterm hops =>
    intro ts rest hts hrest
    obtain ⟨us, vs, rfl, hu, hv⟩ := List.map_eq_append_iff.mp hts
    rw [List.append_assoc]
    have hdetached : Avoids [.dot, .openParen] rest := hrest.mono (by decide)
    exact .expr (hterm hu (hls.avoids_operands hv hdetached)) (hops hv hrest)
  | noOperand =>
    intro ts rest hts hrest
    rw [List.map_eq_nil_iff.mp hts]
    exact .stop (hrest.mono (by decide))
  | operand hmem _ hls hterm hops =>
    intro ts rest hts hrest
    obtain ⟨t, us, rfl, hk, hus⟩ := List.map_eq_cons_iff.mp hts
    obtain ⟨us, vs, rfl, hu, hv⟩ := List.map_eq_append_iff.mp hus
    rw [List.cons_append, List.append_assoc]
    have hdetached : Avoids [.dot, .openParen] rest := hrest.mono (by decide)
    exact .operand hmem hk (hterm hu (hls.avoids_operands hv hdetached)) (hops hv hrest)
  | unsigned _ hatom =>
    intro ts rest hts hrest
    exact .unsigned (hatom hts hrest)
  | signed hmem _ hatom =>
    intro ts rest hts hrest
    obtain ⟨t, us, rfl, hk, hu⟩ := List.map_eq_cons_iff.mp hts
    exact .signed hmem hk (hatom hu hrest)
  | number value =>
    intro ts rest hts hrest
    obtain ⟨t, rfl, hk⟩ := List.map_eq_singleton_iff.mp hts
    exact .number hk
  | identifier name =>
    intro ts rest hts hrest
    obtain ⟨t, rfl, hk⟩ := List.map_eq_singleton_iff.mp hts
    exact .identifier hk fun _ => hrest.mono (by decide)
  | call hcall ih =>
    intro ts rest hts hrest
    obtain ⟨ls, rfl⟩ := hcall.exists_lead
    obtain ⟨t, us, rfl, hk, hus⟩ := List.map_eq_cons_iff.mp hts
    obtain ⟨dot, us, rfl, hdot, hu⟩ := List.map_eq_cons_iff.mp hus
    exact .call hk hdot (ih (congrArg (Rule.call.lead ++ ·) hu) hrest)
  | group _ hexpr =>
    intro ts rest hts hrest
    obtain ⟨t, us, rfl, hk, hus⟩ := List.map_eq_cons_iff.mp hts
    obtain ⟨us, vs, rfl, hu, hv⟩ := List.map_eq_append_iff.mp hus
    obtain ⟨close, rfl, hclose⟩ := List.map_eq_singleton_iff.mp hv
    rw [List.cons_append, List.append_assoc]
    refine .group hk (hexpr hu (avoids_cons.mpr ?_)) hclose
    rw [hclose]
    decide
  | bare name =>
    intro ts rest hts hrest
    obtain ⟨t, rfl, hk⟩ := List.map_eq_singleton_iff.mp (List.append_cancel_left hts)
    exact .bare hk (hrest.mono (by decide))
  | noArgument name =>
    intro ts rest hts hrest
    obtain ⟨t, us, rfl, hk, hus⟩ := List.map_eq_cons_iff.mp (List.append_cancel_left hts)
    obtain ⟨opening, us, rfl, hopen, hus⟩ := List.map_eq_cons_iff.mp hus
    obtain ⟨close, rfl, hclose⟩ := List.map_eq_singleton_iff.mp hus
    exact .noArgument hk hopen hclose
  | called name _ hargs =>
    intro ts rest hts hrest
    obtain ⟨t, us, rfl, hk, hus⟩ := List.map_eq_cons_iff.mp (List.append_cancel_left hts)
    obtain ⟨opening, us, rfl, hopen, hus⟩ := List.map_eq_cons_iff.mp hus
    obtain ⟨us, vs, rfl, hu, hv⟩ := List.map_eq_append_iff.mp hus
    obtain ⟨close, rfl, hclose⟩ := List.map_eq_singleton_iff.mp hv
    rw [List.cons_append, List.cons_append, List.append_assoc]
    refine .called hk hopen (hargs hu (avoids_cons.mpr ?_)) hclose
    rw [hclose]
    decide
  | argument _ hexpr =>
    intro ts rest hts hrest
    exact .argument (hexpr hts hrest)
  | moreArguments _ _ hexpr hargs =>
    intro ts rest hts hrest
    obtain ⟨us, vs, rfl, hu, hv⟩ := List.map_eq_append_iff.mp hts
    obtain ⟨comma, vs, rfl, hcomma, hvs⟩ := List.map_eq_cons_iff.mp hv
    rw [List.append_assoc]
    refine .moreArguments (hexpr hu (avoids_cons.mpr ?_)) hcomma (hargs hvs hrest)
    rw [hcomma]
    decide

/-- An expression of the grammar is what the recognizer finds, with nothing behind it. -/
theorem Recognizer.sentence_eq_ok_iff_derives {ts : List Token} :
    sentence ts = .ok () ↔ Derives .expr (ts.map (·.kind)) := by
  rw [sentence_eq_ok_iff]
  constructor
  · intro h
    obtain ⟨used, rfl, hd⟩ := h.exists_derives
    rw [List.append_nil]
    exact hd
  · intro h
    have hr : Reads .expr (ts ++ []) [] := h.reads rfl (avoids_nil _)
    rwa [List.append_nil] at hr

namespace Recognizer

section
variable {limit depth : Nat} {t : Token} (ts : List Token)

theorem balance_open (hk : t.kind = .symbol .openParen) :
    balance limit depth (t :: ts) = if limit < depth + 1 then
      .error ⟨.malformed (some ("nesting deeper than " ++ limit.repr)), t.span⟩
      else balance limit (depth + 1) ts := by
  simp [balance, hk]

theorem balance_close_zero (hk : t.kind = .symbol .closeParen) :
    balance limit 0 (t :: ts) = .error ⟨.unbalanced, t.span⟩ := by
  simp [balance, hk, unbalanced]

theorem balance_close_succ (hk : t.kind = .symbol .closeParen) :
    balance limit (depth + 1) (t :: ts) = balance limit depth ts := by
  simp [balance, hk]

theorem balance_other (hopen : t.kind ≠ .symbol .openParen)
    (hclose : t.kind ≠ .symbol .closeParen) :
    balance limit depth (t :: ts) = balance limit depth ts := by
  rw [balance.eq_def]
  dsimp only
  split
  · next hk => exact absurd hk hopen
  · next hk => exact absurd hk hclose
  · rfl

end

/-- The first pass follows the number of open parentheses through every prefix. -/
theorem balance_eq_ok_iff {limit : Nat} (ts : List Token) {depth : Nat} (hd : depth ≤ limit) :
    balance limit depth ts = .ok () ↔ ∀ p, p <+: ts →
      0 ≤ depth + nesting (p.map (·.kind)) ∧ depth + nesting (p.map (·.kind)) ≤ limit := by
  induction ts generalizing depth with
  | nil =>
    refine iff_of_true rfl fun p hp => ?_
    rw [List.prefix_nil.mp hp, List.map_nil, nesting_nil]
    omega
  | cons t ts ih =>
    have hsplit : (∀ p, p <+: t :: ts →
          0 ≤ depth + nesting (p.map (·.kind)) ∧ depth + nesting (p.map (·.kind)) ≤ limit) ↔
        ∀ p, p <+: ts →
          0 ≤ depth + nesting [t.kind] + nesting (p.map (·.kind)) ∧
            depth + nesting [t.kind] + nesting (p.map (·.kind)) ≤ limit := by
      constructor
      · intro h p hp
        have := h (t :: p) (List.prefix_cons_iff.mpr (.inr ⟨p, rfl, hp⟩))
        rwa [List.map_cons, nesting_cons, ← Int.add_assoc] at this
      · intro h p hp
        rcases List.prefix_cons_iff.mp hp with rfl | ⟨q, rfl, hq⟩
        · rw [List.map_nil, nesting_nil]
          omega
        · rw [List.map_cons, nesting_cons, ← Int.add_assoc]
          exact h q hq
    rw [hsplit]
    unfold balance
    split
    · next hk =>
      rw [hk, show nesting [.symbol .openParen] = 1 from rfl]
      split
      · next hlt =>
        refine iff_of_false nofun fun h => ?_
        have := (h [] List.nil_prefix).2
        rw [List.map_nil, nesting_nil] at this
        omega
      · next hlt =>
        rw [ih (by omega)]
        push_cast
        rfl
    · next hk =>
      rw [hk, show nesting [.symbol .closeParen] = -1 from rfl]
      cases depth with
      | zero =>
        refine iff_of_false nofun fun h => ?_
        have := (h [] List.nil_prefix).1
        rw [List.map_nil, nesting_nil] at this
        omega
      | succ depth =>
        dsimp only
        rw [ih (by omega), show ((depth + 1 : Nat) : Int) + -1 = depth by omega]
    · next hopen hclose =>
      rw [ih hd, nesting_singleton hopen hclose, Int.add_zero]

end Recognizer

namespace Expression

/-- A token sequence passes the check exactly if the grammar derives it and no prefix leaves more
parentheses open than the limit and the ceiling of 512 allow. The tokens are kept as they are. -/
theorem ofTokens?_eq_ok_iff_derives (limits : Limits) (ts : List Token) :
    ((∃ e, ofTokens? limits ts = .ok e) ↔
      Derives .expr (ts.map (·.kind)) ∧
        ∀ p, p <+: ts →
          ((p.map (·.kind)).count (.symbol .openParen) : Int) -
            (p.map (·.kind)).count (.symbol .closeParen) ≤ min limits.maxDepth 512) ∧
      ∀ e, ofTokens? limits ts = .ok e → e.tokens = ts := by
  refine ⟨?_, fun e => tokens_of_ofTokens?⟩
  rw [exists_ofTokens?_iff, Recognizer.sentence_eq_ok_iff_derives,
    Recognizer.balance_eq_ok_iff ts (Nat.zero_le _), and_comm]
  refine and_congr_right fun hd => forall_congr' fun p => imp_congr_right fun hp => ?_
  have hnonneg := hd.balanced.nonneg _ (hp.map _)
  change _ ↔ nesting _ ≤ (limits.effectiveDepth : Int)
  omega

end Expression

end Reckon
