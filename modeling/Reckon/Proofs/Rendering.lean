import Reckon.Evaluation
import Reckon.Proofs.Formula
import Reckon.Proofs.Tree.Value

/-! The texts of a formula have its value. The tokens of such a text spell a tree that differs from
the formula in its groups only, since the parentheses stand where the grammar would have read the
operands otherwise. -/
namespace Reckon
open Token

namespace Grammar

theorem Derives.append_operands {ks ls : List TokenKind} (hk : Derives .operands ks)
    (hl : Derives .operands ls) : Derives .operands (ks ++ ls) := by
  generalize hrule : Rule.operands = rule at hk
  induction hk with
  | noOperand => exact hl
  | operand hop hterm _ _ ih =>
    rw [List.cons_append, List.append_assoc]
    exact .operand hop hterm (ih rfl)
  | _ => cases hrule

theorem nesting_le_length (ks : List TokenKind) : nesting ks ≤ ks.length := by
  have h : ks.count (.symbol .openParen) ≤ ks.length := List.count_le_length
  rw [nesting]
  omega

end Grammar

namespace Phrase
open Grammar

def Derived : Phrase → List TokenKind → Prop
  | .chain _ _, ks => ∃ us vs, ks = us ++ vs ∧ Derives .term us ∧ Derives .operands vs
  | .operands _ _ _, ks => Derives .operands ks
  | .term _, ks => Derives .term ks
  | .atom _, ks => Derives .atom ks
  | .member _, ks => Derives .call (.identifier "Math" :: .symbol .dot :: ks)
  | .arguments _, ks => Derives .arguments ks

theorem Derived.operand {l : Level} {e : Tree} {ks : List TokenKind}
    (h : Derived (l.operand e) ks) :
    ∃ us vs, ks = us ++ vs ∧ Derives .term us ∧ Derives .operands vs := by
  cases l with
  | sum => exact h
  | product => exact ⟨ks, [], (List.append_nil ks).symm, h, .noOperand⟩

theorem Derived.expr {l : Level} {e : Tree} {ks : List TokenKind} (h : Derived (.chain l e) ks) :
    Derives .expr ks := by
  obtain ⟨us, vs, rfl, hu, hv⟩ := h
  exact .expr hu hv

/-- Whatever spells a phrase is derived by its rule. -/
theorem Spells.derived {p : Phrase} {ts : List Token} (h : Spells p ts) :
    Derived p (ts.map (·.kind)) := by
  induction h with
  | chain _ _ iha ihs =>
    obtain ⟨us, vs, heq, hu, hv⟩ := iha.operand
    refine ⟨us, vs ++ _, ?_, hu, hv.append_operands ihs⟩
    rw [List.map_append, heq, List.append_assoc]
  | noOperand => exact .noOperand
  | @operand l t s op left a e ks ls hs hk _ _ iha ihs =>
    obtain ⟨us, vs, heq, hu, hv⟩ := iha.operand
    have hop : s ∈ binaryOperators := by
      revert hs
      cases l <;> cases s <;> cases op <;> decide
    show Derives .operands _
    rw [List.map_cons, List.map_append, hk, heq, List.append_assoc]
    exact .operand hop hu (hv.append_operands ihs)
  | unsigned _ ih => exact .unsigned ih
  | @signed t s negative e ks hs hk _ ih =>
    have hsign : s ∈ Grammar.signs := by
      revert hs
      cases s <;> cases negative <;> decide
    show Derives .term _
    rw [List.map_cons, hk]
    exact .signed hsign ih
  | number hk =>
    show Derives .atom _
    rw [List.map_singleton, hk]
    exact .number _
  | var hk =>
    show Derives .atom _
    rw [List.map_singleton, hk]
    exact .identifier _
  | group hk _ hclose ih =>
    show Derives .atom _
    rw [List.map_cons, List.map_append, List.map_singleton, hk, hclose]
    exact .group ih.expr
  | member hk hdot _ ih =>
    show Derives .atom _
    rw [List.map_cons, List.map_cons, hk, hdot]
    exact .call ih
  | constant hk =>
    show Derives .call _
    rw [List.map_singleton, hk]
    exact .bare _
  | noArgument hk hopen hclose =>
    show Derives .call _
    rw [List.map_cons, List.map_cons, List.map_singleton, hk, hopen, hclose]
    exact .noArgument _
  | call hk hopen _ hclose ih =>
    show Derives .call _
    rw [List.map_cons, List.map_cons, List.map_append, List.map_singleton, hk, hopen, hclose]
    exact .called _ ih
  | argument _ ih => exact .argument ih.expr
  | moreArguments _ hcomma _ ihe ihs =>
    show Derives .arguments _
    rw [List.map_append, List.map_cons, hcomma]
    exact .moreArguments ihe.expr ihs

def bound : Nat → Tree → Phrase
  | 0, e => .chain .sum e
  | 1, e => .chain .product e
  | 2, e => .term e
  | _, e => .atom e

theorem chain_eq_bound (l : Level) (e : Tree) : Phrase.chain l e = bound l.precedence e := by
  cases l <;> rfl

theorem operand_eq_bound (l : Level) (e : Tree) : l.operand e = bound (l.precedence + 1) e := by
  cases l <;> rfl

theorem Spells.loosen_one {n : Nat} {e : Tree} {ts : List Token} (h : Spells (bound (n + 1) e) ts) :
    Spells (bound n e) ts := by
  have hchain {l : Level} (hl : Spells (l.operand e) ts) : Spells (.chain l e) ts := by
    rw [← List.append_nil ts]
    exact .chain hl .noOperand
  match n with
  | 0 => exact @hchain .sum h
  | 1 => exact @hchain .product h
  | 2 => exact .unsigned h
  | _ + 3 => exact h

theorem Spells.loosen {m n : Nat} {e : Tree} {ts : List Token} (h : Spells (bound n e) ts)
    (hle : m ≤ n) : Spells (bound m e) ts := by
  induction hle with
  | refl => exact h
  | step _ ih => exact ih h.loosen_one

/-- One operator more behind a chain takes the whole chain as its left operand. -/
theorem Spells.append_operand {l : Level} {left a r : Tree} {t : Token} {s : Symbol} {op : BinaryOp}
    {ks ls : List Token} (h : Spells (.operands l left a) ks) (hs : (s, op) ∈ l.operators)
    (hk : t.kind = .symbol s) (hr : Spells (l.operand r) ls) :
    Spells (.operands l left (.binary op a r)) (ks ++ t :: ls) := by
  generalize hp : Phrase.operands l left a = p at h
  induction h generalizing left with
  | noOperand =>
    cases hp
    rw [List.nil_append, ← List.append_nil ls]
    exact .operand hs hk hr .noOperand
  | operand hs' hk' ha _ _ ih =>
    cases hp
    rw [List.cons_append, List.append_assoc]
    exact .operand hs' hk' ha (ih rfl)
  | _ => cases hp

theorem Spells.chain_operand {l : Level} {a r : Tree} {t : Token} {s : Symbol} {op : BinaryOp}
    {ks ls : List Token} (h : Spells (.chain l a) ks) (hs : (s, op) ∈ l.operators)
    (hk : t.kind = .symbol s) (hr : Spells (l.operand r) ls) :
    Spells (.chain l (.binary op a r)) (ks ++ t :: ls) := by
  cases h with
  | chain ha hls =>
    rw [List.append_assoc]
    exact .chain ha (hls.append_operand hs hk hr)

end Phrase

/-- What is run in sequence has its failures replaced one after the other. -/
theorem mapError_bind_eq {ε ε' α β : Type} {g : ε → ε'} {r : Except ε α} {k : α → Except ε β}
    {r' : Except ε' α} {k' : α → Except ε' β} (hr : r.mapError g = r')
    (hk : ∀ a, (k a).mapError g = k' a) : (r >>= k).mapError g = r' >>= k' := by
  subst hr
  cases r with
  | error _ => rfl
  | ok a => exact hk a

theorem BinaryOp.exists_level (op : BinaryOp) :
    ∃ l : Level, (op.symbol, op) ∈ l.operators ∧ op.precedence = l.precedence := by
  cases op with
  | add | sub => exact ⟨.sum, by decide, rfl⟩
  | mul | div | rem => exact ⟨.product, by decide, rfl⟩

namespace Formula
open Word Phrase

theorem argumentWords_cons_cons (f g : Formula) (fs : List Formula) :
    argumentWords (f :: g :: fs) = f.words ++ .symbol .comma :: argumentWords (g :: fs) := rfl

/-- The tokens have the words, wherever they stand. -/
def Reads (ts : List Token) (ws : List Word) : Prop := ts.map (·.content) = ws.map (·.content)

theorem Reads.exists_append {ts : List Token} {ws vs : List Word} (h : Reads ts (ws ++ vs)) :
    ∃ us ls, ts = us ++ ls ∧ Reads us ws ∧ Reads ls vs := by
  rw [Reads, List.map_append] at h
  exact List.map_eq_append_iff.mp h

theorem Reads.exists_cons {ts : List Token} {w : Word} {ws : List Word} (h : Reads ts (w :: ws)) :
    ∃ t us, ts = t :: us ∧ (t.kind = w.kind ∧ t.lexeme = String.ofList w.chars) ∧ Reads us ws := by
  obtain ⟨t, us, rfl, ht, hus⟩ := List.map_eq_cons_iff.mp h
  exact ⟨t, us, rfl, Prod.mk.inj ht, hus⟩

theorem Reads.eq_nil {ts : List Token} (h : Reads ts []) : ts = [] := List.map_eq_nil_iff.mp h

/-- Tokens in parentheses. -/
theorem Reads.exists_enclosed {ts : List Token} {ws : List Word} (h : Reads ts (enclose ws)) :
    ∃ opening us close, ts = opening :: (us ++ [close]) ∧ opening.kind = .symbol .openParen ∧
      Reads us ws ∧ close.kind = .symbol .closeParen := by
  obtain ⟨opening, ts, rfl, ⟨hopen, -⟩, h⟩ := h.exists_cons
  obtain ⟨us, ls, rfl, hus, h⟩ := h.exists_append
  obtain ⟨close, ls, rfl, ⟨hclose, -⟩, h⟩ := h.exists_cons
  rw [h.eq_nil]
  exact ⟨opening, us, close, rfl, hopen, hus, hclose⟩

theorem Reads.exists_member {ts : List Token} {x : Identifier} {ws : List Word}
    (h : Reads ts (member x ++ ws)) :
    ∃ math dot name us, ts = math :: dot :: name :: us ∧ math.kind = .identifier "Math" ∧
      dot.kind = .symbol .dot ∧ (name.kind = .identifier x.text ∧ name.lexeme = x.text) ∧
        Reads us ws := by
  obtain ⟨math, ts, rfl, ⟨hmath, -⟩, h⟩ := h.exists_cons
  obtain ⟨dot, ts, rfl, ⟨hdot, -⟩, h⟩ := h.exists_cons
  obtain ⟨name, us, rfl, hname, h⟩ := h.exists_cons
  exact ⟨math, dot, name, us, rfl, hmath, hdot, hname, h⟩

/-- The tokens spell a tree that is worth the formula. -/
def SpelledBy (f : Formula) (least : Nat) (ts : List Token) : Prop :=
  ∃ e, Spells (bound least e) ts ∧ ∀ b, (e.value b).mapError (·.cause) = f.value b

theorem SpelledBy.loosen {f : Formula} {m n : Nat} {ts : List Token} (h : f.SpelledBy n ts)
    (hle : m ≤ n) : f.SpelledBy m ts := by
  obtain ⟨e, he, hvalue⟩ := h
  exact ⟨e, he.loosen hle, hvalue⟩

theorem SpelledBy.signed {f : Formula} {negative : Bool} {t : Token} {ts : List Token}
    (hk : t.kind = (sign negative).kind) (h : f.SpelledBy 3 ts) :
    (Formula.signed negative f).SpelledBy 2 (t :: ts) := by
  obtain ⟨e, he, hvalue⟩ := h
  refine ⟨.signed negative e, .signed ?_ hk he, fun b => ?_⟩
  · cases negative <;> decide
  · rw [Tree.value, value]
    exact mapError_bind_eq (hvalue b) fun _ => rfl

/-- An operator takes a left operand of its own precedence, but not a right one. -/
theorem SpelledBy.binary {l r : Formula} {op : BinaryOp} {t : Token} {us ls : List Token}
    (hl : l.SpelledBy op.precedence us) (hk : t.kind = .symbol op.symbol)
    (hr : r.SpelledBy (op.precedence + 1) ls) :
    (Formula.binary op l r).SpelledBy op.precedence (us ++ t :: ls) := by
  obtain ⟨left, hl, hlvalue⟩ := hl
  obtain ⟨right, hr, hrvalue⟩ := hr
  obtain ⟨level, hop, hlevel⟩ := op.exists_level
  refine ⟨.binary op left right, ?_, fun b => ?_⟩
  · rw [hlevel, ← chain_eq_bound] at hl ⊢
    rw [hlevel, ← operand_eq_bound] at hr
    exact hl.chain_operand hop hk hr
  · rw [Tree.value, value]
    exact mapError_bind_eq (hlvalue b) fun x => mapError_bind_eq (hrvalue b) fun _ => rfl

/-- An operand in parentheses stands everywhere; one without has to bind tightly enough. -/
theorem spelledBy_of_encloseIf {f : Formula} {needed : Bool} {least : Nat} {ts : List Token}
    (hf : ∀ us, Reads us f.words → f.SpelledBy f.binding us)
    (hneeded : needed = false → least ≤ f.binding) (h : Reads ts (encloseIf needed f.words)) :
    f.SpelledBy (min least 3) ts := by
  cases needed with
  | false => exact (hf ts h).loosen (Nat.le_trans (Nat.min_le_left ..) (hneeded rfl))
  | true =>
    obtain ⟨opening, us, close, rfl, hopen, hus, hclose⟩ := h.exists_enclosed
    obtain ⟨e, he, hvalue⟩ := (hf us hus).loosen (Nat.zero_le _)
    have hgroup : f.SpelledBy 3 (opening :: (us ++ [close])) :=
      ⟨.group e, .group hopen he hclose, hvalue⟩
    exact hgroup.loosen (Nat.min_le_right ..)

mutual

theorem spelledBy : (f : Formula) → (ts : List Token) → Reads ts f.words →
    f.SpelledBy f.binding ts
  | .number n, ts, h => by
    obtain ⟨t, us, rfl, ⟨hk, -⟩, h⟩ := Reads.exists_cons h
    rw [h.eq_nil]
    exact ⟨.number n.value, .number hk, fun b => rfl⟩
  | .var x hx, ts, h => by
    obtain ⟨t, us, rfl, ⟨hk, hlexeme⟩, h⟩ := Reads.exists_cons h
    rw [h.eq_nil]
    refine ⟨.var t, .var hk, fun b => ?_⟩
    rw [Tree.value, value, Resolution.variableValue, Resolution.mapError_ofToken, hlexeme]
    rfl
  | .constant x, ts, h => by
    rw [words, ← List.append_nil (member x)] at h
    obtain ⟨math, dot, name, us, rfl, hmath, hdot, ⟨hk, hlexeme⟩, h⟩ := h.exists_member
    rw [h.eq_nil]
    refine ⟨.constant name, .member hmath hdot (.constant hk), fun b => ?_⟩
    rw [Tree.value, value, Resolution.constantValue, Resolution.mapError_ofToken, hlexeme]
  | .call x args, ts, h => by
    rw [words] at h
    obtain ⟨math, dot, name, us, rfl, hmath, hdot, ⟨hk, hlexeme⟩, h⟩ := h.exists_member
    obtain ⟨opening, us, close, rfl, hopen, hus, hclose⟩ := h.exists_enclosed
    have hvalue {es : List Tree}
        (hes : ∀ b, (Tree.values b es).mapError (·.cause) = values b args) (b : Bindings) :
        ((Tree.call name es).value b).mapError (·.cause) = (call x args).value b := by
      have hcallee := hlexeme ▸ Resolution.mapError_ofToken Resolution.functionNamed name
      rw [Tree.value, value]
      exact mapError_bind_eq hcallee fun f => mapError_bind_eq (hes b) fun _ => rfl
    obtain ⟨rfl, rfl⟩ | ⟨es, hspells, hes⟩ := spelledBy_arguments args us hus
    · exact ⟨.call name [], .member hmath hdot (.noArgument hk hopen hclose), hvalue fun b => rfl⟩
    · exact ⟨.call name es, .member hmath hdot (.call hk hopen hspells hclose), hvalue hes⟩
  | .signed negative f, ts, h => by
    rw [words] at h
    obtain ⟨t, us, rfl, ⟨hk, -⟩, h⟩ := h.exists_cons
    exact .signed hk (spelledBy_of_encloseIf (spelledBy f)
      (fun hneeded => Nat.le_of_not_lt (of_decide_eq_false hneeded)) h)
  | .binary op l r, ts, h => by
    rw [words] at h
    obtain ⟨us, ls, rfl, hleft, h⟩ := h.exists_append
    obtain ⟨t, ls, rfl, ⟨hk, -⟩, hright⟩ := h.exists_cons
    have hprec := op.precedence_le_one
    have hl := spelledBy_of_encloseIf (spelledBy l)
      (fun hneeded => Nat.le_of_not_lt (of_decide_eq_false hneeded)) hleft
    have hr := spelledBy_of_encloseIf (spelledBy r)
      (fun hneeded => Nat.lt_of_not_le (of_decide_eq_false hneeded)) hright
    exact .binary (hl.loosen (by omega)) hk (hr.loosen (by omega))

theorem spelledBy_arguments : (fs : List Formula) → (ts : List Token) →
    Reads ts (argumentWords fs) → fs = [] ∧ ts = [] ∨ ∃ es, Spells (.arguments es) ts ∧
      ∀ b, (Tree.values b es).mapError (·.cause) = values b fs
  | [], ts, h => .inl ⟨rfl, Reads.eq_nil h⟩
  | [f], ts, h => by
    obtain ⟨e, he, hvalue⟩ := (spelledBy f ts h).loosen (Nat.zero_le _)
    refine .inr ⟨[e], .argument he, fun b => ?_⟩
    rw [Tree.values, values]
    exact mapError_bind_eq (hvalue b) fun _ => rfl
  | f :: f' :: fs, ts, h => by
    rw [argumentWords_cons_cons] at h
    obtain ⟨us, ls, rfl, hus, h⟩ := h.exists_append
    obtain ⟨comma, ls, rfl, ⟨hcomma, -⟩, hls⟩ := h.exists_cons
    obtain ⟨e, he, hvalue⟩ := (spelledBy f us hus).loosen (Nat.zero_le _)
    obtain ⟨hnil, -⟩ | ⟨es, hes, hvalues⟩ := spelledBy_arguments (f' :: fs) ls hls
    · cases hnil
    refine .inr ⟨e :: es, .moreArguments he hcomma hes, fun b => ?_⟩
    rw [Tree.values, values]
    exact mapError_bind_eq (hvalue b) fun x => mapError_bind_eq (hvalues b) fun _ => rfl

end

end Formula

namespace Expression

theorem value_of_spells {x : Expression} {e : Tree} (h : Phrase.Spells (.chain .sum e) x.tokens)
    (b : Bindings) : x.value b = e.value b := by
  obtain ⟨e', he', hvalue⟩ := x.exists_tree
  rw [hvalue, he'.tree_unique h]

/-- Tokens that spell a tree pass the check if their parentheses are not nested too deeply, and have
the value of the tree. -/
theorem exists_ofTokens?_of_spells {e : Tree} {ts : List Token} {limits : Limits}
    (h : Phrase.Spells (.chain .sum e) ts)
    (hdepth : ∀ p, p <+: ts.map (·.kind) → Grammar.nesting p ≤ limits.effectiveDepth) :
    ∃ x, Expression.ofTokens? limits ts = .ok x ∧ ∀ b, x.value b = e.value b := by
  have hderives : Grammar.Derives .expr (ts.map (·.kind)) := h.derived.expr
  have hbalance : Recognizer.balance limits.effectiveDepth 0 ts = .ok () := by
    refine (Recognizer.balance_eq_ok_iff ts (Nat.zero_le _)).mpr fun p hp => ?_
    have hnonneg := hderives.balanced.nonneg _ (hp.map (·.kind))
    have hle := hdepth _ (hp.map (·.kind))
    omega
  obtain ⟨x, hx⟩ := exists_ofTokens?_iff.mpr
    ⟨hbalance, Recognizer.sentence_eq_ok_iff_derives.mpr hderives⟩
  have htokens := tokens_of_ofTokens? hx
  exact ⟨x, hx, fun b => value_of_spells (htokens ▸ h) b⟩

end Expression

namespace Formula

/-- The words of a formula are an expression. -/
theorem derives_words {f : Formula} {ts : List Token} (h : Reads ts f.words) :
    Grammar.Derives .expr (ts.map (·.kind)) := by
  obtain ⟨e, he, -⟩ := (f.spelledBy ts h).loosen (Nat.zero_le _)
  exact he.derived.expr

/-- Tokens that have the words of a formula pass the check and have its value. -/
theorem exists_ofTokens? {f : Formula} {ts : List Token} {limits : Limits} (h : Reads ts f.words)
    (hdepth : ∀ p, p <+: f.words.map (·.kind) → Grammar.nesting p ≤ limits.effectiveDepth) :
    ∃ x, Expression.ofTokens? limits ts = .ok x ∧
      ∀ b, (x.value b).mapError (·.cause) = f.value b := by
  obtain ⟨e, he, hvalue⟩ := (f.spelledBy ts h).loosen (Nat.zero_le _)
  obtain ⟨x, hx, hxvalue⟩ :=
    Expression.exists_ofTokens?_of_spells he (map_kind_of_content h ▸ hdepth)
  refine ⟨x, hx, fun b => ?_⟩
  rw [hxvalue, hvalue]

theorem adjoining_words (f : Formula) : Adjoining (f.words.map (·.kind)) := by
  have h : Reads (f.words.map fun w => ⟨w.kind, String.ofList w.chars, Span.point 0⟩) f.words := by
    rw [Reads, List.map_map]
    rfl
  rw [← map_kind_of_content h]
  exact (derives_words h).joined.adjoining

/-- A spacing of a formula passes the check, as an expression that is worth the formula. -/
theorem exists_validate {f : Formula} {source : String} {limits : Limits}
    (hspaced : Spaced f.words source.toList)
    (hlength : Text.byteLength source.toList ≤ limits.maxSourceLength)
    (hdepth : ∀ p, p <+: f.words.map (·.kind) → Grammar.nesting p ≤ limits.effectiveDepth) :
    ∃ x, validate source limits = .ok x ∧ ∀ b, (x.value b).mapError (·.cause) = f.value b := by
  have hnormal : Text.normalize source.toList = source.toList :=
    Text.normalize_of_below fun c hc => Nat.lt_trans (hspaced.lt c hc) (by decide)
  obtain ⟨ts, hcut, hts⟩ := hspaced.exists_cut f.adjoining_words 0
  obtain ⟨x, hx, hvalue⟩ := exists_ofTokens? hts hdepth
  refine ⟨x, ?_, hvalue⟩
  rw [validate_of_short hlength, hnormal, tokenize, tokenizeFrom_of_cut hcut rfl]
  exact hx

/-- However a formula is spaced, its text evaluates to its value, or to the cause for which it has
none: no two of its words are read as one, and its parentheses are enough to keep its operands. -/
theorem evaluate_rendering (f : Formula) (b : Bindings) (limits : Limits) (source : String)
    (hsource : Spaced f.words source.toList)
    (hlength : Text.byteLength source.toList ≤ limits.maxSourceLength)
    (hdepth : ∀ p, p <+: f.words.map (·.kind) → Grammar.nesting p ≤ limits.effectiveDepth) :
    (evaluate source b limits).mapError (·.cause) = f.value b := by
  obtain ⟨x, hx, hvalue⟩ := exists_validate hsource hlength hdepth
  rw [evaluate, hx]
  exact hvalue b

/-- A sum is in parentheses as a factor, and a factor with a sign is not. -/
theorem evaluate_rendering_product :
    (evaluate " ( Math . E + Math . PI ) * - Math . PI" Bindings.empty).mapError (·.cause) =
      .ok ((2.718281828459045 + 3.141592653589793) * -3.141592653589793) := by
  let e : Identifier := ⟨'E', [], rfl, nofun⟩
  let pi : Identifier := ⟨'P', ['I'], rfl, List.all_eq_true.mp rfl⟩
  let f : Formula := .binary .mul (.binary .add (.constant e) (.constant pi))
    (.signed true (.constant pi))
  have hspaced : Spaced f.words " ( Math . E + Math . PI ) * - Math . PI".toList := .blanks f.words
  have hdepth : ∀ p, p <+: f.words.map (·.kind) →
      Grammar.nesting p ≤ ({} : Limits).effectiveDepth := by
    intro p hp
    have hle := Grammar.nesting_le_length p
    have hlength : p.length ≤ 14 := hp.length_le
    have hlimit : ({} : Limits).effectiveDepth = 256 := rfl
    omega
  exact evaluate_rendering f Bindings.empty {} _ hspaced (by decide) hdepth

end Formula

end Reckon
