import Reckon.Token

/-! The grammar of expressions over kinds of tokens. Lexemes and spans play no part in it. A derived
sequence closes every parenthesis that it opens, and no other. -/
namespace Reckon

/-- The nonterminals. `operands` is `(BinOp Term)*` and `arguments` is `Expr (',' Expr)*`. -/
inductive Rule where
  | expr
  | operands
  | term
  | atom
  | call
  | arguments
deriving DecidableEq, Repr

namespace Grammar

def binaryOperators : List Symbol := [.plus, .minus, .star, .slash, .percent]

def signs : List Symbol := [.plus, .minus]

inductive Derives : Rule → List TokenKind → Prop where
  | expr {ks ls} : Derives .term ks → Derives .operands ls → Derives .expr (ks ++ ls)
  | noOperand : Derives .operands []
  | operand {op ks ls} : op ∈ binaryOperators → Derives .term ks → Derives .operands ls →
      Derives .operands (.symbol op :: (ks ++ ls))
  | unsigned {ks} : Derives .atom ks → Derives .term ks
  | signed {sign ks} : sign ∈ signs → Derives .atom ks → Derives .term (.symbol sign :: ks)
  | number (value) : Derives .atom [.number value]
  | identifier (name) : Derives .atom [.identifier name]
  | call {ks} : Derives .call ks → Derives .atom ks
  | group {ks} : Derives .expr ks →
      Derives .atom (.symbol .openParen :: (ks ++ [.symbol .closeParen]))
  | bare (name) : Derives .call [.identifier "Math", .symbol .dot, .identifier name]
  | noArgument (name) : Derives .call
      [.identifier "Math", .symbol .dot, .identifier name, .symbol .openParen, .symbol .closeParen]
  | called (name) {ks} : Derives .arguments ks →
      Derives .call (.identifier "Math" :: .symbol .dot :: .identifier name :: .symbol .openParen ::
        (ks ++ [.symbol .closeParen]))
  | argument {ks} : Derives .expr ks → Derives .arguments ks
  | moreArguments {ks ls} : Derives .expr ks → Derives .arguments ls →
      Derives .arguments (ks ++ .symbol .comma :: ls)

def nesting (ks : List TokenKind) : Int :=
  (ks.count (.symbol .openParen) : Int) - ks.count (.symbol .closeParen)

@[simp] theorem nesting_nil : nesting [] = 0 := rfl

@[simp] theorem nesting_append (ks ls : List TokenKind) :
    nesting (ks ++ ls) = nesting ks + nesting ls := by
  simp only [nesting, List.count_append]
  omega

theorem nesting_cons (k : TokenKind) (ks : List TokenKind) :
    nesting (k :: ks) = nesting [k] + nesting ks := nesting_append [k] ks

theorem nesting_singleton {k : TokenKind} (ho : k ≠ .symbol .openParen)
    (hc : k ≠ .symbol .closeParen) : nesting [k] = 0 := by
  simp [nesting, ho, hc]

private theorem prefix_of_append {p ks ls : List TokenKind} (h : p <+: ks ++ ls) :
    p <+: ks ∨ ∃ q, p = ks ++ q ∧ q <+: ls := by
  obtain ⟨r, hr⟩ := h
  rcases List.append_eq_append_iff.mp hr with ⟨a, ha, -⟩ | ⟨q, hq, hl⟩
  · exact .inl ⟨a, ha.symm⟩
  · exact .inr ⟨q, hq, r, hl.symm⟩

/-- As many parentheses are closed as are opened, and none before it is opened. -/
structure Balanced (ks : List TokenKind) : Prop where
  nonneg : ∀ p, p <+: ks → 0 ≤ nesting p
  total : nesting ks = 0

theorem Balanced.nil : Balanced [] := ⟨fun p hp => by simp [List.prefix_nil.mp hp], rfl⟩

theorem Balanced.append {ks ls : List TokenKind} (hk : Balanced ks) (hl : Balanced ls) :
    Balanced (ks ++ ls) := by
  constructor
  · intro p hp
    rcases prefix_of_append hp with h | ⟨q, rfl, hq⟩
    · exact hk.nonneg p h
    · rw [nesting_append, hk.total, Int.zero_add]
      exact hl.nonneg q hq
  · rw [nesting_append, hk.total, hl.total, Int.zero_add]

theorem Balanced.cons {k : TokenKind} {ks : List TokenKind} (hn : nesting [k] = 0)
    (hk : Balanced ks) : Balanced (k :: ks) := by
  constructor
  · intro p hp
    rcases List.prefix_cons_iff.mp hp with rfl | ⟨q, rfl, hq⟩
    · exact Int.le_refl 0
    · rw [nesting_cons, hn, Int.zero_add]
      exact hk.nonneg q hq
  · rw [nesting_cons, hn, hk.total, Int.zero_add]

theorem Balanced.enclosed {ks : List TokenKind} (hk : Balanced ks) :
    Balanced (.symbol .openParen :: (ks ++ [.symbol .closeParen])) := by
  have hone : nesting [.symbol .openParen] = 1 := rfl
  constructor
  · intro p hp
    rcases List.prefix_cons_iff.mp hp with rfl | ⟨q, rfl, hq⟩
    · exact Int.le_refl 0
    rw [nesting_cons, hone]
    rcases prefix_of_append hq with h | ⟨r, rfl, hr⟩
    · have := hk.nonneg q h
      omega
    · rw [nesting_append, hk.total]
      -- the last parenthesis closes the first one
      rcases List.prefix_cons_iff.mp hr with rfl | ⟨u, rfl, hu⟩
      · decide
      · rw [List.prefix_nil.mp hu]
        decide
  · rw [nesting_cons, nesting_append, hk.total]
    rfl

theorem nesting_binaryOperator {op : Symbol} (h : op ∈ binaryOperators) :
    nesting [.symbol op] = 0 := by
  revert op
  decide

theorem nesting_sign {sign : Symbol} (h : sign ∈ signs) : nesting [.symbol sign] = 0 := by
  revert sign
  decide

private theorem Balanced.member (name : String) {ks : List TokenKind} (hk : Balanced ks) :
    Balanced (.identifier "Math" :: .symbol .dot :: .identifier name :: ks) := by
  refine .cons ?_ (.cons ?_ (.cons ?_ hk)) <;> rfl

theorem Derives.balanced {rule : Rule} {ks : List TokenKind} (h : Derives rule ks) :
    Balanced ks := by
  induction h with
  | expr _ _ hk hl => exact hk.append hl
  | noOperand => exact .nil
  | operand hop _ _ hk hl => exact (hk.append hl).cons (nesting_binaryOperator hop)
  | unsigned _ hk => exact hk
  | signed hs _ hk => exact hk.cons (nesting_sign hs)
  | number value => exact Balanced.nil.cons rfl
  | identifier name => exact Balanced.nil.cons rfl
  | call _ hk => exact hk
  | group _ hk => exact hk.enclosed
  | bare name => exact Balanced.nil.member name
  | noArgument name => exact Balanced.nil.enclosed.member name
  | called name _ hk => exact hk.enclosed.member name
  | argument _ hk => exact hk
  | moreArguments _ _ hk hl => exact hk.append (hl.cons rfl)

end Grammar

end Reckon
