import Reckon.Proofs.Reading
import Reckon.Proofs.Tree

/-! A sequence of tokens spells one tree at most. Of two phrases of one kind at the front of the
same tokens, neither of which can go on, both take the same tokens and have the same tree. -/
namespace Reckon
open Token

namespace Phrase

/-- The symbols that would go on with a term. -/
def afterTerm : List Symbol := [.dot, .openParen]

end Phrase

namespace Level

def tighter : Level → List Symbol
  | .sum => [.star, .slash, .percent]
  | .product => []

def afterOperand (l : Level) : List Symbol := l.tighter ++ Phrase.afterTerm

def afterChain : Level → List Symbol
  | .sum => [.plus, .minus] ++ afterOperand .sum
  | .product => afterOperand .sum

theorem mem_afterChain {l : Level} {s : Symbol} {op : BinaryOp} (h : (s, op) ∈ l.operators) :
    s ∈ l.afterChain ∧ s ∉ l.afterOperand := by
  revert h
  cases l <;> cases s <;> cases op <;> decide

end Level

namespace Phrase

/-- The symbols that would go on with a phrase. -/
def successors : Phrase → List Symbol
  | .chain l _ | .operands l _ _ => l.afterChain
  | .term _ | .atom _ | .member _ => afterTerm
  | .arguments _ => .comma :: Level.sum.afterChain

theorem successors_operand (l : Level) (e : Tree) :
    (l.operand e).successors = l.afterOperand := by
  cases l <;> rfl

/-- Phrases of one kind, behind the same operand if there is one. -/
inductive Alike : Phrase → Phrase → Prop where
  | chain (l e e') : Alike (.chain l e) (.chain l e')
  | operands (l left e e') : Alike (.operands l left e) (.operands l left e')
  | term (e e') : Alike (.term e) (.term e')
  | atom (e e') : Alike (.atom e) (.atom e')
  | member (e e') : Alike (.member e) (.member e')
  | arguments (es es') : Alike (.arguments es) (.arguments es')

theorem Alike.operand (l : Level) (e e' : Tree) : Alike (l.operand e) (l.operand e') := by
  cases l
  · exact .chain ..
  · exact .term ..

theorem operand_inj {l : Level} {e e' : Tree} (h : l.operand e = l.operand e') : e = e' := by
  cases l <;> cases h <;> rfl

theorem avoids_of_kind {ss : List Symbol} {t : Token} {s : Symbol} (ts : List Token)
    (hk : t.kind = .symbol s) (hs : s ∉ ss) : Avoids ss (t :: ts) := by
  refine avoids_cons.mpr fun r hr h => hs ?_
  rw [hk] at h
  cases h
  exact hr

theorem avoids_closeParen (p : Phrase) {close : Token} (ts : List Token)
    (hk : close.kind = .symbol .closeParen) : Avoids p.successors (close :: ts) := by
  refine avoids_of_kind ts hk ?_
  cases p with
  | chain l | operands l =>
    cases l <;> simp [successors, Level.afterChain, Level.afterOperand, Level.tighter, afterTerm]
  | _ => simp [successors, Level.afterChain, Level.afterOperand, Level.tighter, afterTerm]

theorem avoids_comma (l : Level) (e : Tree) {comma : Token} (ts : List Token)
    (hk : comma.kind = .symbol .comma) : Avoids (Phrase.chain l e).successors (comma :: ts) := by
  refine avoids_of_kind ts hk ?_
  cases l <;> simp [successors, Level.afterChain, Level.afterOperand, Level.tighter, afterTerm]

theorem Spells.avoids_operands {l : Level} {left e : Tree} {ks rest : List Token}
    (h : Spells (.operands l left e) ks) (hrest : Avoids l.afterChain rest) :
    Avoids l.afterOperand (ks ++ rest) := by
  cases h with
  | noOperand => exact hrest.mono (by cases l <;> decide)
  | operand hs hk => exact avoids_of_kind _ hk (Level.mem_afterChain hs).2

theorem Spells.avoids_tighter {l : Level} {left e : Tree} {ks rest : List Token}
    (h : Spells (.operands l left e) ks) (hrest : Avoids Grammar.binaryOperators rest) :
    Avoids l.tighter (ks ++ rest) := by
  cases h with
  | noOperand => exact hrest.mono (by cases l <;> simp [Level.tighter, Grammar.binaryOperators])
  | operand hs hk =>
    refine avoids_of_kind _ hk ?_
    exact fun hmem => (Level.mem_afterChain hs).2 (List.mem_append_left _ hmem)

/-- Neither an operand nor an argument list starts with a closing parenthesis. -/
theorem Spells.exists_cons {p : Phrase} {ks : List Token} (h : Spells p ks)
    (hp : ∀ l left e, p ≠ .operands l left e) :
    ∃ t ts, ks = t :: ts ∧ t.kind ≠ .symbol .closeParen := by
  induction h with
  | @chain l _ _ _ _ _ _ ih =>
    obtain ⟨t, ts, rfl, hk⟩ := ih (by cases l <;> nofun)
    exact ⟨t, _, rfl, hk⟩
  | noOperand | operand => exact absurd rfl (hp _ _ _)
  | unsigned _ ih | argument _ ih => exact ih nofun
  | moreArguments _ _ _ ih =>
    obtain ⟨t, ts, rfl, hk⟩ := ih nofun
    exact ⟨t, _, rfl, hk⟩
  | signed hs hk =>
    refine ⟨_, _, rfl, fun hclose => ?_⟩
    rw [hk] at hclose
    cases hclose
    exact absurd hs (by simp [signs])
  | number hk | var hk | group hk | member hk | constant hk | noArgument hk | call hk =>
    refine ⟨_, _, rfl, ?_⟩
    rw [hk]
    nofun

theorem Spells.kind_ne_symbol {e : Tree} {t : Token} {ts : List Token} {s : Symbol}
    (h : Spells (.atom e) (t :: ts)) (hs : s ≠ .openParen) : t.kind ≠ .symbol s := by
  intro hk
  cases h with
  | number hk' | var hk' | member hk' => cases hk.symm.trans hk'
  | group hk' =>
    cases hk.symm.trans hk'
    exact hs rfl

theorem ne_dot_of_operator {l : Level} {s : Symbol} {op : BinaryOp} (h : (s, op) ∈ l.operators) :
    s ≠ .dot := by
  rintro rfl
  revert h
  cases l <;> cases op <;> decide

theorem ne_dot_of_sign {s : Symbol} {negative : Bool} (h : (s, negative) ∈ signs) : s ≠ .dot := by
  rintro rfl
  revert h
  cases negative <;> decide

theorem ne_openParen_of_sign {s : Symbol} {negative : Bool} (h : (s, negative) ∈ signs) :
    s ≠ .openParen := by
  rintro rfl
  revert h
  cases negative <;> decide

theorem sign_inj {s : Symbol} {negative negative' : Bool}
    (h : (s, negative) ∈ signs) (h' : (s, negative') ∈ signs) : negative = negative' := by
  revert h h'
  cases s <;> cases negative <;> cases negative' <;> decide

theorem avoids_afterChain {es : List Tree} {rest : List Token}
    (h : Avoids (Phrase.arguments es).successors rest) :
    Avoids Level.sum.afterChain rest := h.mono (List.subset_cons_self ..)

/-- No other phrase of the kind is at the front of tokens that start with these. -/
def Sole (p : Phrase) (ks : List Token) : Prop :=
  ∀ p' ks' rest rest', Alike p p' → Spells p' ks' → ks ++ rest = ks' ++ rest' →
    Avoids p.successors rest → Avoids p'.successors rest' → p = p' ∧ ks = ks'

namespace Sole
variable {l : Level} {s : Symbol} {a e : Tree} {es : List Tree} {ks ls : List Token}
  {t opening close comma dot : Token}

theorem chain (hls : Spells (.operands l a e) ls) (iha : Sole (l.operand a) ks)
    (ihs : Sole (.operands l a e) ls) : Sole (.chain l e) (ks ++ ls) := by
  intro p' ks' rest rest' hlike h' heq hr hr'
  cases hlike
  cases h' with
  | chain ha' hls' =>
    rw [List.append_assoc, List.append_assoc] at heq
    obtain ⟨hab, rfl⟩ := iha _ _ _ _ (.operand ..) ha' heq
      (successors_operand l a ▸ hls.avoids_operands hr)
      (successors_operand l _ ▸ hls'.avoids_operands hr')
    obtain rfl := operand_inj hab
    obtain ⟨he, rfl⟩ := ihs _ _ _ _ (.operands ..) hls' (List.append_cancel_left heq) hr hr'
    cases he
    exact ⟨rfl, rfl⟩

theorem noOperand (l : Level) (e : Tree) : Sole (.operands l e e) [] := by
  intro p' ks' rest rest' hlike h' heq hr hr'
  cases hlike
  cases h' with
  | noOperand => exact ⟨rfl, rfl⟩
  | operand hs hk =>
    rw [List.nil_append, List.cons_append] at heq
    subst heq
    exact absurd hk (avoids_cons.mp hr _ (Level.mem_afterChain hs).1)

theorem operand {op : BinaryOp} {left : Tree} (hs : (s, op) ∈ l.operators)
    (hk : t.kind = .symbol s) (hls : Spells (.operands l (.binary op left a) e) ls)
    (iha : Sole (l.operand a) ks) (ihs : Sole (.operands l (.binary op left a) e) ls) :
    Sole (.operands l left e) (t :: (ks ++ ls)) := by
  intro p' ks' rest rest' hlike h' heq hr hr'
  cases hlike
  cases h' with
  | noOperand =>
    rw [List.nil_append, List.cons_append] at heq
    subst heq
    exact absurd hk (avoids_cons.mp hr' _ (Level.mem_afterChain hs).1)
  | operand hs' hk' ha' hls' =>
    rw [List.cons_append, List.append_assoc, List.cons_append, List.append_assoc] at heq
    obtain ⟨rfl, htail⟩ := List.cons.inj heq
    cases hk.symm.trans hk'
    obtain rfl := Level.operators_inj hs hs'
    obtain ⟨hab, rfl⟩ := iha _ _ _ _ (.operand ..) ha' htail
      (successors_operand l a ▸ hls.avoids_operands hr)
      (successors_operand l _ ▸ hls'.avoids_operands hr')
    obtain rfl := operand_inj hab
    obtain ⟨he, rfl⟩ := ihs _ _ _ _ (.operands ..) hls' (List.append_cancel_left htail) hr hr'
    cases he
    exact ⟨rfl, rfl⟩

theorem unsigned (he : Spells (.atom e) ks) (ih : Sole (.atom e) ks) : Sole (.term e) ks := by
  intro p' ks' rest rest' hlike h' heq hr hr'
  cases hlike
  cases h' with
  | unsigned he' =>
    obtain ⟨h, rfl⟩ := ih _ _ _ _ (.atom ..) he' heq hr hr'
    cases h
    exact ⟨rfl, rfl⟩
  | signed hs' hk' =>
    obtain ⟨t, ts, rfl, -⟩ := he.exists_cons nofun
    obtain ⟨rfl, -⟩ := List.cons.inj heq
    exact absurd hk' (he.kind_ne_symbol (ne_openParen_of_sign hs'))

theorem signed {negative : Bool} (hs : (s, negative) ∈ signs) (hk : t.kind = .symbol s)
    (ih : Sole (.atom e) ks) :
    Sole (.term (.signed negative e)) (t :: ks) := by
  intro p' ks' rest rest' hlike h' heq hr hr'
  cases hlike
  cases h' with
  | signed hs' hk' he' =>
    obtain ⟨rfl, htail⟩ := List.cons.inj heq
    cases hk.symm.trans hk'
    obtain rfl := sign_inj hs hs'
    obtain ⟨h, rfl⟩ := ih _ _ _ _ (.atom ..) he' htail hr hr'
    cases h
    exact ⟨rfl, rfl⟩
  | unsigned he' =>
    obtain ⟨t, ts, rfl, -⟩ := he'.exists_cons nofun
    obtain ⟨rfl, -⟩ := List.cons.inj heq
    exact absurd hk (he'.kind_ne_symbol (ne_openParen_of_sign hs))

theorem number {x : Float} (hk : t.kind = .number x) : Sole (.atom (.number x)) [t] := by
  intro p' ks' rest rest' hlike h' heq hr hr'
  cases hlike
  cases h' with
  | number hk' =>
    obtain ⟨rfl, -⟩ := List.cons.inj heq
    cases hk.symm.trans hk'
    exact ⟨rfl, rfl⟩
  | var hk' | group hk' | member hk' =>
    obtain ⟨rfl, -⟩ := List.cons.inj heq
    cases hk.symm.trans hk'

theorem var {name : String} (hk : t.kind = .identifier name) : Sole (.atom (.var t)) [t] := by
  intro p' ks' rest rest' hlike h' heq hr hr'
  cases hlike
  cases h' with
  | var =>
    obtain ⟨rfl, -⟩ := List.cons.inj heq
    exact ⟨rfl, rfl⟩
  | number hk' | group hk' =>
    obtain ⟨rfl, -⟩ := List.cons.inj heq
    cases hk.symm.trans hk'
  | member _ hdot =>
    -- the name is `Math`, and the dot behind it goes on with it
    simp only [List.cons_append, List.nil_append, List.cons.injEq] at heq
    obtain ⟨-, rfl⟩ := heq
    exact absurd hdot (avoids_cons.mp hr _ (List.mem_cons_self ..))

theorem group (hk : opening.kind = .symbol .openParen) (hclose : close.kind = .symbol .closeParen)
    (ih : Sole (.chain .sum e) ks) : Sole (.atom (.group e)) (opening :: (ks ++ [close])) := by
  intro p' ks' rest rest' hlike h' heq hr hr'
  cases hlike
  cases h' with
  | group hk' he' hclose' =>
    simp only [List.cons_append, List.append_assoc, List.cons.injEq] at heq
    obtain ⟨rfl, htail⟩ := heq
    obtain ⟨h, rfl⟩ := ih _ _ _ _ (.chain ..) he' htail
      (avoids_closeParen _ _ hclose) (avoids_closeParen _ _ hclose')
    cases h
    obtain ⟨rfl, -⟩ := List.cons.inj (List.append_cancel_left htail)
    exact ⟨rfl, rfl⟩
  | number hk' | var hk' | member hk' =>
    obtain ⟨rfl, -⟩ := List.cons.inj heq
    cases hk.symm.trans hk'

theorem member (hk : t.kind = .identifier "Math") (hdot : dot.kind = .symbol .dot)
    (ih : Sole (.member e) ks) : Sole (.atom e) (t :: dot :: ks) := by
  intro p' ks' rest rest' hlike h' heq hr hr'
  cases hlike
  cases h' with
  | member _ _ he' =>
    simp only [List.cons_append, List.cons.injEq] at heq
    obtain ⟨rfl, rfl, htail⟩ := heq
    obtain ⟨h, rfl⟩ := ih _ _ _ _ (.member ..) he' htail hr hr'
    cases h
    exact ⟨rfl, rfl⟩
  | number hk' | group hk' =>
    obtain ⟨rfl, -⟩ := List.cons.inj heq
    cases hk.symm.trans hk'
  | var =>
    simp only [List.cons_append, List.nil_append, List.cons.injEq] at heq
    obtain ⟨-, rfl⟩ := heq
    exact absurd hdot (avoids_cons.mp hr' _ (List.mem_cons_self ..))

theorem constant (t : Token) : Sole (.member (.constant t)) [t] := by
  intro p' ks' rest rest' hlike h' heq hr hr'
  cases hlike
  cases h' with
  | constant =>
    obtain ⟨rfl, -⟩ := List.cons.inj heq
    exact ⟨rfl, rfl⟩
  | noArgument _ hopen | call _ hopen =>
    simp only [List.cons_append, List.nil_append, List.cons.injEq] at heq
    obtain ⟨-, rfl⟩ := heq
    exact absurd hopen (avoids_cons.mp hr _ (by simp [successors, afterTerm]))

theorem noArgument (hopen : opening.kind = .symbol .openParen)
    (hclose : close.kind = .symbol .closeParen) :
    Sole (.member (.call t [])) [t, opening, close] := by
  intro p' ks' rest rest' hlike h' heq hr hr'
  cases hlike
  cases h' with
  | noArgument =>
    simp only [List.cons_append, List.nil_append, List.cons.injEq] at heq
    obtain ⟨rfl, rfl, rfl, -⟩ := heq
    exact ⟨rfl, rfl⟩
  | constant =>
    simp only [List.cons_append, List.nil_append, List.cons.injEq] at heq
    obtain ⟨-, rfl⟩ := heq
    exact absurd hopen (avoids_cons.mp hr' _ (by simp [successors, afterTerm]))
  | call _ _ hes =>
    obtain ⟨t, ts, rfl, hne⟩ := hes.exists_cons nofun
    simp only [List.cons_append, List.nil_append, List.cons.injEq] at heq
    obtain ⟨-, -, rfl, -⟩ := heq
    exact absurd hclose hne

theorem call (hopen : opening.kind = .symbol .openParen) (hes : Spells (.arguments es) ks)
    (hclose : close.kind = .symbol .closeParen) (ih : Sole (.arguments es) ks) :
    Sole (.member (.call t es)) (t :: opening :: (ks ++ [close])) := by
  intro p' ks' rest rest' hlike h' heq hr hr'
  cases hlike
  cases h' with
  | call _ _ hes' hclose' =>
    simp only [List.cons_append, List.cons.injEq, List.append_assoc] at heq
    obtain ⟨rfl, rfl, htail⟩ := heq
    obtain ⟨h, rfl⟩ := ih _ _ _ _ (.arguments ..) hes' htail
      (avoids_closeParen _ _ hclose) (avoids_closeParen _ _ hclose')
    cases h
    obtain ⟨rfl, -⟩ := List.cons.inj (List.append_cancel_left htail)
    exact ⟨rfl, rfl⟩
  | constant =>
    simp only [List.cons_append, List.nil_append, List.cons.injEq] at heq
    obtain ⟨-, rfl⟩ := heq
    exact absurd hopen (avoids_cons.mp hr' _ (by simp [successors, afterTerm]))
  | noArgument _ _ hclose' =>
    obtain ⟨t, ts, rfl, hne⟩ := hes.exists_cons nofun
    simp only [List.cons_append, List.nil_append, List.cons.injEq] at heq
    obtain ⟨-, -, rfl, -⟩ := heq
    exact absurd hclose' hne

theorem argument (ih : Sole (.chain .sum e) ks) : Sole (.arguments [e]) ks := by
  intro p' ks' rest rest' hlike h' heq hr hr'
  cases hlike
  cases h' with
  | argument he' =>
    obtain ⟨h, rfl⟩ := ih _ _ _ _ (.chain ..) he' heq (avoids_afterChain hr)
      (avoids_afterChain hr')
    cases h
    exact ⟨rfl, rfl⟩
  | moreArguments he' hcomma' hes' =>
    rw [List.append_assoc, List.cons_append] at heq
    obtain ⟨h, rfl⟩ := ih _ _ _ _ (.chain ..) he' heq (avoids_afterChain hr)
      (avoids_comma _ _ _ hcomma')
    obtain rfl := List.append_cancel_left heq
    exact absurd hcomma' (avoids_cons.mp hr _ (List.mem_cons_self ..))

theorem moreArguments (hcomma : comma.kind = .symbol .comma) (ihe : Sole (.chain .sum e) ks)
    (ihes : Sole (.arguments es) ls) : Sole (.arguments (e :: es)) (ks ++ comma :: ls) := by
  intro p' ks' rest rest' hlike h' heq hr hr'
  cases hlike
  cases h' with
  | argument he' =>
    rw [List.append_assoc, List.cons_append] at heq
    obtain ⟨h, rfl⟩ := ihe _ _ _ _ (.chain ..) he' heq
      (avoids_comma _ _ _ hcomma) (avoids_afterChain hr')
    obtain rfl := List.append_cancel_left heq
    exact absurd hcomma (avoids_cons.mp hr' _ (List.mem_cons_self ..))
  | moreArguments he' hcomma' hes' =>
    rw [List.append_assoc, List.cons_append, List.append_assoc, List.cons_append] at heq
    obtain ⟨h, rfl⟩ := ihe _ _ _ _ (.chain ..) he' heq
      (avoids_comma _ _ _ hcomma)
      (avoids_comma _ _ _ hcomma')
    cases h
    obtain ⟨rfl, htail⟩ := List.cons.inj (List.append_cancel_left heq)
    obtain ⟨h, rfl⟩ := ihes _ _ _ _ (.arguments ..) hes' htail hr hr'
    cases h
    exact ⟨rfl, rfl⟩

end Sole

theorem Spells.sole {p : Phrase} {ks : List Token} (h : Spells p ks) : Sole p ks := by
  induction h with
  | chain _ hls iha ihs => exact .chain hls iha ihs
  | noOperand => exact .noOperand _ _
  | operand hs hk _ hls iha ihs => exact .operand hs hk hls iha ihs
  | unsigned he ih => exact .unsigned he ih
  | signed hs hk _ ih => exact .signed hs hk ih
  | number hk => exact .number hk
  | var hk => exact .var hk
  | group hk _ hclose ih => exact .group hk hclose ih
  | member hk hdot _ ih => exact .member hk hdot ih
  | constant => exact .constant _
  | noArgument _ hopen hclose => exact .noArgument hopen hclose
  | call _ hopen hes hclose ih => exact .call hopen hes hclose ih
  | argument _ ih => exact .argument ih
  | moreArguments _ hcomma _ ihe ihes => exact .moreArguments hcomma ihe ihes

/-- A whole sequence of tokens spells one tree at most. -/
theorem Spells.tree_unique {e e' : Tree} {ts : List Token} (h : Spells (.chain .sum e) ts)
    (h' : Spells (.chain .sum e') ts) : e = e' := by
  obtain ⟨he, -⟩ := h.sole _ _ _ _ (.chain ..) h' rfl (avoids_nil _) (avoids_nil _)
  cases he
  rfl

end Phrase

end Reckon
