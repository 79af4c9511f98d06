import Reckon.Proofs.Tree.Unique

/-! The interpreter builds no tree, and yet computes the value of the one that its tokens spell.
Climbing from a lower bound than the precedence of a chain takes the whole chain and then goes on
with what stands behind it. -/
namespace Reckon
open Token

@[simp] private theorem ok_bind {ε α β : Type} (a : α) (f : α → Except ε β) :
    (Except.ok a >>= f) = f a := rfl

private theorem map_eq_bind {ε α β : Type} (f : α → β) (x : Except ε α) :
    x.map f = x >>= fun a => .ok (f a) := by
  cases x <;> rfl

namespace Interpreter
variable {b : Bindings} {finish : Nat}

theorem run_eq_reached (ts : List Token) :
    run b ts = reached (climb b (Token.finish ts) 0 ts) >>= fun p =>
      match p.2 with
      | [] => .ok p.1
      | t :: _ => .error (Recognizer.unexpected t) := by
  unfold run
  cases climb b (Token.finish ts) 0 ts <;> rfl

/-- Climbing stops where no operator binds as tightly as the bound asks for. -/
theorem climbFrom_stop {min : Nat} {x : Float} {ts : List Token}
    (h : ∀ t ∈ ts.head?, ∀ op, BinaryOp.ofKind? t.kind = some op → op.precedence < min) :
    reached (climbFrom b finish min x ts) = .ok (x, ts) := by
  cases ts with
  | nil => exact reached_climbFrom_nil ..
  | cons t ts =>
    rw [reached_climbFrom_cons]
    split
    · rfl
    · next op hop => rw [if_pos (h t rfl op hop)]

theorem climbFrom_separator {min : Nat} {x : Float} {t : Token} {s : Symbol} {ts : List Token}
    (hk : t.kind = .symbol s) (hs : s ∉ Grammar.binaryOperators) :
    reached (climbFrom b finish min x (t :: ts)) = .ok (x, t :: ts) := by
  refine climbFrom_stop fun t' ht' op hop => ?_
  cases ht'
  obtain ⟨r, hr, hkr⟩ := BinaryOp.isSome_ofKind?_iff.mp (Option.isSome_of_eq_some hop)
  cases hk.symm.trans hkr
  exact absurd hr hs

theorem climbFrom_operand {min : Nat} {l : Level} {t : Token} {s : Symbol} {op : BinaryOp}
    {x : Float} {ts : List Token} (hs : (s, op) ∈ l.operators) (hk : t.kind = .symbol s)
    (hmin : min ≤ l.precedence) :
    reached (climbFrom b finish min x (t :: ts)) =
      reached (climb b finish (l.precedence + 1) ts) >>= fun p =>
        reached (climbFrom b finish min (op.arithmetic x p.1) p.2) := by
  obtain ⟨hop, hprec⟩ := Level.mem_operators_iff.mp hs
  have hkind : BinaryOp.ofKind? t.kind = some op := by rw [hk]; exact hop
  rw [reached_climbFrom_cons, hkind, ← hprec, ← op.apply_eq_arithmetic]
  exact if_neg (by omega)

/-- Where no operator binds tighter than those of a chain, an operand of the chain ends. -/
theorem precedence_lt_of_avoids {l : Level} {ts : List Token} (h : Avoids l.tighter ts) :
    ∀ t ∈ ts.head?, ∀ op, BinaryOp.ofKind? t.kind = some op → op.precedence < l.precedence + 1 := by
  intro t ht op hop
  obtain ⟨s, hs, hk⟩ := BinaryOp.isSome_ofKind?_iff.mp (Option.isSome_of_eq_some hop)
  have hne : s ∉ l.tighter := fun hmem => h t ht s hmem hk
  rw [hk] at hop
  revert hop hne
  cases l <;> cases s <;> cases op <;> decide

/-- The interpreter gets the value of a phrase from its tokens, and goes on behind them. -/
def Evaluates (b : Bindings) (finish : Nat) : Phrase → List Token → List Token → Prop
  | .chain l e, ks, rest => ∀ min ≤ l.precedence,
    reached (climb b finish min (ks ++ rest)) =
      e.value b >>= fun x => reached (climbFrom b finish min x rest)
  | .operands l left e, ks, rest => ∀ min ≤ l.precedence,
    (left.value b >>= fun x => reached (climbFrom b finish min x (ks ++ rest))) =
      e.value b >>= fun x => reached (climbFrom b finish min x rest)
  | .term e, ks, rest =>
    reached (term b finish (ks ++ rest)) = e.value b >>= fun x => .ok (x, rest)
  | .atom e, ks, rest =>
    reached (atom b finish (ks ++ rest)) = e.value b >>= fun x => .ok (x, rest)
  | .member e, ks, rest =>
    reached (member b finish (ks ++ rest)) = e.value b >>= fun x => .ok (x, rest)
  | .arguments es, ks, rest => ∀ close rest', rest = close :: rest' →
    close.kind = .symbol .closeParen →
      reached (argumentsFrom b finish (ks ++ rest)) =
        Tree.values b es >>= fun xs => .ok (xs, rest')

theorem Evaluates.climb_operand {l : Level} {a : Tree} {ks rest : List Token} {min : Nat}
    (h : Evaluates b finish (l.operand a) ks rest) (hmin : min ≤ l.precedence + 1) :
    reached (climb b finish min (ks ++ rest)) =
      a.value b >>= fun x => reached (climbFrom b finish min x rest) := by
  cases l with
  | sum => exact h min hmin
  | product =>
    have hterm : reached (term b finish (ks ++ rest)) = _ := h
    rw [reached_climb, hterm, bind_assoc]
    simp only [ok_bind]

theorem Evaluates.chain {l : Level} {a e : Tree} {ks ls rest : List Token}
    (ha : Evaluates b finish (l.operand a) ks (ls ++ rest))
    (hls : Evaluates b finish (.operands l a e) ls rest) :
    Evaluates b finish (.chain l e) (ks ++ ls) rest := by
  intro min hmin
  rw [List.append_assoc, ha.climb_operand (by omega)]
  exact hls min hmin

theorem Evaluates.operand {l : Level} {t : Token} {s : Symbol} {op : BinaryOp} {left a e : Tree}
    {ks ls rest : List Token} (hs : (s, op) ∈ l.operators) (hk : t.kind = .symbol s)
    (hstop : Avoids l.tighter (ls ++ rest))
    (ha : Evaluates b finish (l.operand a) ks (ls ++ rest))
    (hls : Evaluates b finish (.operands l (.binary op left a) e) ls rest) :
    Evaluates b finish (.operands l left e) (t :: (ks ++ ls)) rest := by
  intro min hmin
  rw [← hls min hmin, Tree.value, bind_assoc, List.cons_append, List.append_assoc]
  congr 1
  funext x
  rw [climbFrom_operand hs hk hmin, ha.climb_operand (Nat.le_refl _), bind_assoc, bind_assoc]
  congr 1
  funext y
  rw [climbFrom_stop (precedence_lt_of_avoids hstop)]
  rfl

theorem Evaluates.unsigned {e : Tree} {ks rest : List Token} (hks : Phrase.Spells (.atom e) ks)
    (h : Evaluates b finish (.atom e) ks rest) : Evaluates b finish (.term e) ks rest := by
  have hatom : reached (atom b finish (ks ++ rest)) = _ := h
  obtain ⟨t, ts, rfl, -⟩ := hks.exists_cons nofun
  have hminus : t.is .minus = false := is_eq_false_iff.mpr (hks.kind_ne_symbol (by decide))
  have hplus : t.is .plus = false := is_eq_false_iff.mpr (hks.kind_ne_symbol (by decide))
  show reached (term b finish (t :: (ts ++ rest))) = _
  rw [reached_term_cons, hminus, hplus]
  exact hatom

theorem Evaluates.signed {t : Token} {s : Symbol} {negative : Bool} {e : Tree}
    {ks rest : List Token} (hs : (s, negative) ∈ Phrase.signs)
    (hk : t.kind = .symbol s) (h : Evaluates b finish (.atom e) ks rest) :
    Evaluates b finish (.term (.signed negative e)) (t :: ks) rest := by
  have hatom : reached (atom b finish (ks ++ rest)) = _ := h
  show reached (term b finish (t :: (ks ++ rest))) = _
  rw [reached_term_cons, hatom, Tree.value, bind_assoc]
  simp only [Phrase.signs, List.mem_cons, Prod.mk.injEq, List.not_mem_nil, or_false] at hs
  obtain ⟨rfl, rfl⟩ | ⟨rfl, rfl⟩ := hs
  · have hminus : t.is .minus = false := by simp [Token.is, hk]
    rw [hminus, is_iff.mpr hk]
    rfl
  · rw [is_iff.mpr hk, if_pos rfl, map_eq_bind, bind_assoc]
    rfl

theorem Evaluates.number {t : Token} {x : Float} {rest : List Token} (hk : t.kind = .number x) :
    Evaluates b finish (.atom (.number x)) [t] rest := by
  show reached (atom b finish (t :: rest)) = _
  rw [reached_atom_cons, hk]
  rfl

theorem Evaluates.var {t : Token} {name : String} {rest : List Token}
    (hk : t.kind = .identifier name) (hrest : name = "Math" → Avoids [.dot] rest) :
    Evaluates b finish (.atom (.var t)) [t] rest := by
  show reached (atom b finish (t :: rest)) = _
  rw [reached_atom_cons, hk, Tree.value]
  cases rest with
  | nil => exact map_eq_bind ..
  | cons dot rest =>
    dsimp only
    rw [if_neg]
    · exact map_eq_bind ..
    · rw [Bool.and_eq_true, isMath_iff, is_iff, hk]
      rintro ⟨hname, hdot⟩
      have hmath : name = "Math" := TokenKind.identifier.inj hname
      exact avoids_cons.mp (hrest hmath) _ (List.mem_singleton_self _) hdot

theorem Evaluates.group {opening close : Token} {e : Tree} {ks rest : List Token}
    (hk : opening.kind = .symbol .openParen) (hclose : close.kind = .symbol .closeParen)
    (h : Evaluates b finish (.chain .sum e) ks (close :: rest)) :
    Evaluates b finish (.atom (.group e)) (opening :: (ks ++ [close])) rest := by
  have hclimb : reached (climb b finish 0 (ks ++ close :: rest)) = _ := h 0 (Nat.zero_le _)
  show reached (atom b finish (opening :: (ks ++ [close] ++ rest))) = _
  rw [reached_atom_cons, hk, List.append_assoc, List.singleton_append]
  show reached (climb b finish 0 (ks ++ close :: rest)) >>= _ = _
  rw [hclimb, Tree.value, bind_assoc]
  congr 1
  funext x
  rw [climbFrom_separator hclose (by decide)]
  simp only [ok_bind, leftover_close_cons, is_iff.mpr hclose, if_true]
  rfl

theorem Evaluates.member {t dot : Token} {e : Tree} {ks rest : List Token}
    (hk : t.kind = .identifier "Math") (hdot : dot.kind = .symbol .dot)
    (h : Evaluates b finish (.member e) ks rest) :
    Evaluates b finish (.atom e) (t :: dot :: ks) rest := by
  show reached (atom b finish (t :: dot :: (ks ++ rest))) = _
  rw [reached_atom_cons, hk]
  simp only [isMath_iff.mpr hk, is_iff.mpr hdot, Bool.and_self, if_true]
  exact h

theorem Evaluates.constant (t : Token) {rest : List Token} (hrest : Avoids [.openParen] rest) :
    Evaluates b finish (.member (.constant t)) [t] rest := by
  show reached (Interpreter.member b finish (t :: rest)) = _
  rw [reached_member_cons, Tree.value]
  cases rest with
  | nil => exact map_eq_bind ..
  | cons opening rest =>
    have hopen : opening.is .openParen = false :=
      is_eq_false_iff.mpr (avoids_cons.mp hrest _ (List.mem_singleton_self _))
    simp only [hopen, Bool.false_eq_true, if_false]
    exact map_eq_bind ..

/-- The target of a call comes before its arguments. -/
theorem Evaluates.of_arguments {t opening : Token} {es : List Tree} {ks rest : List Token}
    (hopen : opening.kind = .symbol .openParen)
    (h : reached (arguments b finish (ks ++ rest)) =
      Tree.values b es >>= fun xs => .ok (xs, rest)) :
    Evaluates b finish (.member (.call t es)) (t :: opening :: ks) rest := by
  show reached (Interpreter.member b finish (t :: opening :: (ks ++ rest))) = _
  rw [reached_member_cons, Tree.value, bind_assoc]
  simp only [is_iff.mpr hopen, if_true]
  congr 1
  funext f
  rw [h, map_eq_bind, bind_assoc, bind_assoc]
  rfl

theorem Evaluates.noArgument {t opening close : Token} {rest : List Token}
    (hopen : opening.kind = .symbol .openParen) (hclose : close.kind = .symbol .closeParen) :
    Evaluates b finish (.member (.call t [])) [t, opening, close] rest := by
  refine of_arguments hopen ?_
  show reached (arguments b finish (close :: rest)) = _
  rw [reached_arguments_cons, if_pos (is_iff.mpr hclose)]
  rfl

theorem Evaluates.call {t opening close : Token} {es : List Tree} {ks rest : List Token}
    (hopen : opening.kind = .symbol .openParen) (hclose : close.kind = .symbol .closeParen)
    (hks : Phrase.Spells (.arguments es) ks)
    (h : Evaluates b finish (.arguments es) ks (close :: rest)) :
    Evaluates b finish (.member (.call t es)) (t :: opening :: (ks ++ [close])) rest := by
  refine of_arguments hopen ?_
  have hfrom := h close rest rfl hclose
  obtain ⟨k, ks, rfl, hk⟩ := hks.exists_cons nofun
  rw [List.append_assoc, List.singleton_append, List.cons_append, reached_arguments_cons,
    is_eq_false_iff.mpr hk]
  exact hfrom

theorem Evaluates.argument {e : Tree} {ks rest : List Token}
    (h : Evaluates b finish (.chain .sum e) ks rest) :
    Evaluates b finish (.arguments [e]) ks rest := by
  rintro close rest rfl hclose
  have hcomma : close.is .comma = false := by
    rw [is_eq_false_iff, hclose]
    nofun
  rw [reached_argumentsFrom, h 0 (Nat.zero_le _), bind_assoc, Tree.values, bind_assoc]
  congr 1
  funext x
  rw [climbFrom_separator hclose (by decide)]
  simp only [ok_bind, hcomma, Bool.false_eq_true, if_false, leftover_close_cons,
    is_iff.mpr hclose, if_true]
  rfl

theorem Evaluates.moreArguments {comma : Token} {e : Tree} {es : List Tree}
    {ks ls rest : List Token} (hcomma : comma.kind = .symbol .comma)
    (h : Evaluates b finish (.chain .sum e) ks (comma :: (ls ++ rest)))
    (hs : Evaluates b finish (.arguments es) ls rest) :
    Evaluates b finish (.arguments (e :: es)) (ks ++ comma :: ls) rest := by
  rintro close rest rfl hclose
  rw [List.append_assoc, List.cons_append, reached_argumentsFrom, h 0 (Nat.zero_le _), bind_assoc,
    Tree.values, bind_assoc]
  congr 1
  funext x
  rw [climbFrom_separator hcomma (by decide)]
  simp only [ok_bind, is_iff.mpr hcomma, if_true]
  rw [hs close rest rfl hclose, map_eq_bind, bind_assoc, bind_assoc]
  rfl

def Follows (p : Phrase) (ks rest : List Token) : Prop :=
  Phrase.Spells p ks ∧ ∀ b finish, Evaluates b finish p ks rest

theorem Follows.chain {l : Level} {a e : Tree} {ks ls rest : List Token}
    (ha : Follows (l.operand a) ks (ls ++ rest)) (hls : Follows (.operands l a e) ls rest) :
    Follows (.chain l e) (ks ++ ls) rest :=
  ⟨.chain ha.1 hls.1, fun b finish => .chain (ha.2 b finish) (hls.2 b finish)⟩

theorem Follows.noOperand (l : Level) (e : Tree) (rest : List Token) :
    Follows (.operands l e e) [] rest :=
  ⟨.noOperand, fun _ _ _ _ => rfl⟩

theorem Follows.operand {l : Level} {t : Token} {s : Symbol} {op : BinaryOp} {left a e : Tree}
    {ks ls rest : List Token} (hs : (s, op) ∈ l.operators) (hk : t.kind = .symbol s)
    (hstop : Avoids l.tighter (ls ++ rest)) (ha : Follows (l.operand a) ks (ls ++ rest))
    (hls : Follows (.operands l (.binary op left a) e) ls rest) :
    Follows (.operands l left e) (t :: (ks ++ ls)) rest :=
  ⟨.operand hs hk ha.1 hls.1, fun b finish => .operand hs hk hstop (ha.2 b finish) (hls.2 b finish)⟩

/-- Behind a left operand, a flat chain of operators is first a chain of factors and then one of
summands. -/
def Regroups (ts rest : List Token) : Prop :=
  Avoids Grammar.binaryOperators rest ∧ ∃ us vs, ts = us ++ (vs ++ rest) ∧
    (∀ left, ∃ p, Follows (.operands .product left p) us (vs ++ rest)) ∧
    ∀ left, ∃ e, Follows (.operands .sum left e) vs rest

theorem Regroups.nil {ts : List Token} (h : Avoids Grammar.binaryOperators ts) : Regroups ts ts :=
  ⟨h, [], [], rfl, fun left => ⟨left, .noOperand ..⟩, fun left => ⟨left, .noOperand ..⟩⟩

theorem Regroups.cons {t : Token} {s : Symbol} {a : Tree} {ks mid rest : List Token}
    (hs : s ∈ Grammar.binaryOperators) (hk : t.kind = .symbol s) (ha : Follows (.term a) ks mid)
    (h : Regroups mid rest) : Regroups (t :: (ks ++ mid)) rest := by
  obtain ⟨hrest, us, vs, rfl, hus, hvs⟩ := h
  refine ⟨hrest, ?_⟩
  obtain ⟨op, hop | hop⟩ := Level.exists_mem_operators hs
  · -- the factors behind the operator belong to its right operand
    obtain ⟨p, hp⟩ := hus a
    refine ⟨[], t :: ((ks ++ us) ++ vs), by simp, fun left => ⟨left, .noOperand ..⟩, fun left => ?_⟩
    obtain ⟨e, he⟩ := hvs (.binary op left p)
    exact ⟨e, .operand hop hk (he.1.avoids_tighter hrest) (.chain ha hp) he⟩
  · refine ⟨t :: (ks ++ us), vs, by simp, fun left => ?_, hvs⟩
    obtain ⟨p, hp⟩ := hus (.binary op left a)
    have hstop : Avoids Level.product.tighter (us ++ (vs ++ rest)) := nofun
    exact ⟨p, .operand hop hk hstop ha hp⟩

def FollowedBy : Rule → List Token → List Token → Prop
  | .expr, ts, rest => Avoids Grammar.binaryOperators rest ∧
    ∃ e used, ts = used ++ rest ∧ Follows (.chain .sum e) used rest
  | .operands, ts, rest => Regroups ts rest
  | .term, ts, rest => ∃ e used, ts = used ++ rest ∧ Follows (.term e) used rest
  | .atom, ts, rest => ∃ e used, ts = used ++ rest ∧ Follows (.atom e) used rest
  | .call, ts, rest => ∃ e used, ts = used ++ rest ∧ Follows (.member e) used rest
  | .arguments, ts, rest => ∃ es used, ts = used ++ rest ∧ Follows (.arguments es) used rest

theorem followedBy_of_reads {rule : Rule} {ts rest : List Token}
    (h : Recognizer.Reads rule ts rest) : FollowedBy rule ts rest := by
  induction h with
  | expr _ _ hterm hops =>
    obtain ⟨a, ks, rfl, ha⟩ := hterm
    obtain ⟨hrest, us, vs, rfl, hus, hvs⟩ := hops
    obtain ⟨p, hp⟩ := hus a
    obtain ⟨e, he⟩ := hvs p
    exact ⟨hrest, e, (ks ++ us) ++ vs, by simp, .chain (.chain ha hp) he⟩
  | stop hstop => exact .nil hstop
  | operand hmem hk _ _ hterm hops =>
    obtain ⟨a, ks, rfl, ha⟩ := hterm
    exact .cons hmem hk ha hops
  | unsigned _ hatom =>
    obtain ⟨e, ks, rfl, hks, he⟩ := hatom
    exact ⟨e, ks, rfl, .unsigned hks, fun b finish => .unsigned hks (he b finish)⟩
  | @signed t sign ts rest hmem hk _ hatom =>
    obtain ⟨e, ks, rfl, hks, he⟩ := hatom
    obtain ⟨negative, hs⟩ : ∃ negative, (sign, negative) ∈ Phrase.signs := by
      revert hmem
      cases sign <;> decide
    exact ⟨_, t :: ks, rfl, .signed hs hk hks, fun b finish => .signed hs hk (he b finish)⟩
  | @number t value ts hk => exact ⟨_, [t], rfl, .number hk, fun _ _ => .number hk⟩
  | @identifier t name ts hk hdot => exact ⟨_, [t], rfl, .var hk, fun _ _ => .var hk hdot⟩
  | @call t dot ts rest hk hdot _ hcall =>
    obtain ⟨e, ks, rfl, hks, he⟩ := hcall
    exact ⟨e, t :: dot :: ks, rfl, .member hk hdot hks,
      fun b finish => .member hk hdot (he b finish)⟩
  | @group t ts close rest hk _ hclose hexpr =>
    obtain ⟨-, e, ks, rfl, hks, he⟩ := hexpr
    exact ⟨_, t :: (ks ++ [close]), by simp, .group hk hks hclose,
      fun b finish => .group hk hclose (he b finish)⟩
  | @bare t name ts hk hopen =>
    exact ⟨_, [t], rfl, .constant hk, fun _ _ => .constant t hopen⟩
  | @noArgument t name opening close ts hk hopen hclose =>
    exact ⟨_, [t, opening, close], rfl, .noArgument hk hopen hclose,
      fun _ _ => .noArgument hopen hclose⟩
  | @called t name opening ts close rest hk hopen _ hclose hargs =>
    obtain ⟨es, ks, rfl, hks, hes⟩ := hargs
    exact ⟨_, t :: opening :: (ks ++ [close]), by simp, .call hk hopen hks hclose,
      fun b finish => .call hopen hclose hks (hes b finish)⟩
  | argument _ hexpr =>
    obtain ⟨-, e, ks, rfl, hks, he⟩ := hexpr
    exact ⟨[e], ks, rfl, .argument hks, fun b finish => .argument (he b finish)⟩
  | @moreArguments ts comma mid rest _ hcomma _ hexpr hargs =>
    obtain ⟨-, e, ks, rfl, hks, he⟩ := hexpr
    obtain ⟨es, ls, rfl, hls, hes⟩ := hargs
    exact ⟨e :: es, ks ++ comma :: ls, by simp, .moreArguments hks hcomma hls,
      fun b finish => .moreArguments hcomma (he b finish) (hes b finish)⟩

/-- Where the recognizer reads an expression, the interpreter gets the value of a tree that the same
tokens spell, and stops behind them. -/
theorem exists_spells_of_reads {ts rest : List Token} (h : Recognizer.Reads .expr ts rest) :
    ∃ e used, ts = used ++ rest ∧ Phrase.Spells (.chain .sum e) used ∧
      ∀ b finish, reached (climb b finish 0 ts) = e.value b >>= fun x => .ok (x, rest) := by
  obtain ⟨hrest, e, used, rfl, hused, heval⟩ := followedBy_of_reads h
  refine ⟨e, used, rfl, hused, fun b finish => ?_⟩
  have hstop : ∀ x, reached (climbFrom b finish 0 x rest) = .ok (x, rest) := by
    intro x
    refine climbFrom_stop fun t ht op hop => ?_
    obtain ⟨s, hs, hk⟩ := BinaryOp.isSome_ofKind?_iff.mp (Option.isSome_of_eq_some hop)
    exact absurd hk (hrest t ht s hs)
  rw [heval b finish 0 (Nat.zero_le _)]
  simp only [hstop]

end Interpreter

/-- An expression is worth a tree that its tokens spell. -/
theorem Expression.exists_tree (x : Expression) :
    ∃ e, Phrase.Spells (.chain .sum e) x.tokens ∧ ∀ b, x.value b = e.value b := by
  obtain ⟨e, used, hused, he, hclimb⟩ :=
    Interpreter.exists_spells_of_reads (Recognizer.sentence_eq_ok_iff.mp x.derivable)
  rw [List.append_nil] at hused
  subst hused
  refine ⟨e, he, fun b => ?_⟩
  rw [Expression.value, Interpreter.run_eq_reached, hclimb, bind_assoc]
  exact bind_pure _

/-- An expression has one syntax tree, and the interpreter computes its value. -/
theorem Expression.value_eq_tree_value (x : Expression) :
    ∃ e, (Phrase.Spells (.chain .sum e) x.tokens ∧
        ∀ e', Phrase.Spells (.chain .sum e') x.tokens → e' = e) ∧
      ∀ b, x.value b = e.value b := by
  obtain ⟨e, he, hvalue⟩ := x.exists_tree
  exact ⟨e, ⟨he, fun e' he' => he'.tree_unique he⟩, hvalue⟩

end Reckon
