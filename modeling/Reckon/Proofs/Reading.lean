import Reckon.Proofs.Descent
import Reckon.Proofs.Grammar

/-! The successful runs of the recognizer as a relation between what it is given and what it leaves.
Beside the rules of the grammar it says where the recognizer looks one token ahead. The open
parentheses, the operator before and the end of the input only matter to failures. -/
namespace Reckon

theorem exists_of_bind_eq_ok {ε α β : Type} {x : Except ε α} {f : α → Except ε β} {b : β}
    (h : x >>= f = .ok b) : ∃ a, x = .ok a ∧ f a = .ok b := by
  cases x with
  | error e => cases h
  | ok a => exact ⟨a, rfl, h⟩

namespace Token

/-- The sequence does not start with any of the symbols. -/
def Avoids (ss : List Symbol) (ts : List Token) : Prop :=
  ∀ t ∈ ts.head?, ∀ s ∈ ss, t.kind ≠ .symbol s

@[simp] theorem avoids_nil (ss : List Symbol) : Avoids ss [] := nofun

theorem avoids_cons {ss : List Symbol} {t : Token} {ts : List Token} :
    Avoids ss (t :: ts) ↔ ∀ s ∈ ss, t.kind ≠ .symbol s := by
  simp [Avoids]

theorem Avoids.mono {ss rr : List Symbol} {ts : List Token} (h : Avoids ss ts) (hsub : rr ⊆ ss) :
    Avoids rr ts := fun t ht s hs => h t ht s (hsub hs)

theorem is_iff {t : Token} {s : Symbol} : t.is s = true ↔ t.kind = .symbol s := beq_iff_eq

theorem is_of_kind {t : Token} {s : Symbol} (hk : t.kind = .symbol s) (r : Symbol) :
    t.is r = (s == r) := by
  rw [Token.is, hk]
  cases s <;> cases r <;> rfl

theorem is_eq_false_iff {t : Token} {s : Symbol} : t.is s = false ↔ t.kind ≠ .symbol s := by
  rw [← Bool.not_eq_true, is_iff]

theorem isMath_iff {t : Token} : t.isMath = true ↔ t.kind = .identifier "Math" := by
  unfold isMath TokenKind.isMath
  split <;> simp_all

theorem isSign_iff {t : Token} : t.isSign = true ↔ ∃ s ∈ Grammar.signs, t.kind = .symbol s := by
  unfold isSign TokenKind.isSign
  split
  · next s hs =>
    rw [hs]
    cases s <;> simp [Symbol.isSign, Grammar.signs]
  · next hs =>
    simp only [Bool.false_eq_true, false_iff]
    rintro ⟨s, -, h⟩
    exact hs s h

end Token

theorem BinaryOp.isSome_ofKind?_iff {k : TokenKind} :
    (ofKind? k).isSome = true ↔ ∃ op ∈ Grammar.binaryOperators, k = .symbol op := by
  unfold ofKind?
  split
  · next s =>
    cases s <;> simp [ofSymbol?, Grammar.binaryOperators]
  · next hs =>
    simp only [Option.isSome_none, Bool.false_eq_true, false_iff]
    rintro ⟨s, -, h⟩
    exact hs s h

namespace Recognizer
open Grammar Token

inductive Reads : Rule → List Token → List Token → Prop where
  | expr {ts mid rest} : Reads .term ts mid → Reads .operands mid rest → Reads .expr ts rest
  | stop {ts} : Avoids binaryOperators ts → Reads .operands ts ts
  | operand {t op ts mid rest} : op ∈ binaryOperators → t.kind = .symbol op →
      Reads .term ts mid → Reads .operands mid rest → Reads .operands (t :: ts) rest
  | unsigned {ts rest} : Reads .atom ts rest → Reads .term ts rest
  | signed {t sign ts rest} : sign ∈ signs → t.kind = .symbol sign → Reads .atom ts rest →
      Reads .term (t :: ts) rest
  | number {t value ts} : t.kind = .number value → Reads .atom (t :: ts) ts
  | identifier {t name ts} : t.kind = .identifier name → (name = "Math" → Avoids [.dot] ts) →
      Reads .atom (t :: ts) ts
  | call {t dot ts rest} : t.kind = .identifier "Math" → dot.kind = .symbol .dot →
      Reads .call ts rest → Reads .atom (t :: dot :: ts) rest
  | group {t ts close rest} : t.kind = .symbol .openParen → Reads .expr ts (close :: rest) →
      close.kind = .symbol .closeParen → Reads .atom (t :: ts) rest
  | bare {t name ts} : t.kind = .identifier name → Avoids [.openParen] ts → Reads .call (t :: ts) ts
  | noArgument {t name opening close ts} : t.kind = .identifier name →
      opening.kind = .symbol .openParen → close.kind = .symbol .closeParen →
      Reads .call (t :: opening :: close :: ts) ts
  | called {t name opening ts close rest} : t.kind = .identifier name →
      opening.kind = .symbol .openParen → Reads .arguments ts (close :: rest) →
      close.kind = .symbol .closeParen → Reads .call (t :: opening :: ts) rest
  | argument {ts rest} : Reads .expr ts rest → Reads .arguments ts rest
  | moreArguments {ts comma mid rest} : Reads .expr ts (comma :: mid) →
      comma.kind = .symbol .comma → Reads .arguments mid rest → Reads .arguments ts rest

section
variable {finish : Nat} {opened : List Span}

theorem leftover_close_eq_ok_iff {opening : Span} {ts rest : List Token} :
    leftover (close opening ts) = .ok rest ↔
      ∃ t : Token, t.kind = .symbol .closeParen ∧ ts = t :: rest := by
  constructor
  · intro h
    cases ts with
    | nil => cases h
    | cons t ts =>
      rw [leftover_close_cons] at h
      split at h
      · next ht =>
        cases h
        exact ⟨t, is_iff.mp ht, rfl⟩
      · cases h
  · rintro ⟨t, ht, rfl⟩
    rw [leftover_close_cons, if_pos (is_iff.mpr ht)]

mutual

theorem reads_expr : (ts : List Token) → {rest : List Token} → {opened : List Span} →
    leftover (expr finish opened ts) = .ok rest → Reads .expr ts rest
  | ts, rest, opened, h => by
    rw [leftover_expr] at h
    obtain ⟨mid, hterm, hops⟩ := exists_of_bind_eq_ok h
    have hmid := length_lt_of_leftover hterm
    exact .expr (reads_term ts hterm) (reads_operands mid hops)
termination_by ts => (ts.length, 3)

theorem reads_operands : (ts : List Token) → {rest : List Token} → {opened : List Span} →
    leftover (operands finish opened ts) = .ok rest → Reads .operands ts rest
  | [], rest, opened, h => by
    rw [leftover_operands_nil] at h
    cases h
    exact .stop (avoids_nil _)
  | t :: ts, rest, opened, h => by
    rw [leftover_operands_cons] at h
    split at h
    · next hop =>
      obtain ⟨op, hmem, hk⟩ := BinaryOp.isSome_ofKind?_iff.mp hop
      obtain ⟨mid, hterm, hops⟩ := exists_of_bind_eq_ok h
      have hmid := length_lt_of_leftover hterm
      exact .operand hmem hk (reads_term ts hterm) (reads_operands mid hops)
    · next hop =>
      cases h
      exact .stop (avoids_cons.mpr fun op hmem hk =>
        hop (BinaryOp.isSome_ofKind?_iff.mpr ⟨op, hmem, hk⟩))
termination_by ts => (ts.length, 0)

theorem reads_term : (ts : List Token) → {rest : List Token} → {opened : List Span} →
    {operator : Option Token} → leftover (term finish opened operator ts) = .ok rest →
    Reads .term ts rest
  | [], rest, opened, operator, h => by
    rw [leftover_term_nil] at h
    cases h
  | t :: ts, rest, opened, operator, h => by
    rw [leftover_term_cons] at h
    split at h
    · next hs =>
      obtain ⟨sign, hmem, hk⟩ := isSign_iff.mp hs
      exact .signed hmem hk (reads_atom ts h)
    · exact .unsigned (reads_atom (t :: ts) h)
termination_by ts => (ts.length, 2)

theorem reads_atom : (ts : List Token) → {rest : List Token} → {opened : List Span} →
    {operator : Option Token} → leftover (atom finish opened operator ts) = .ok rest →
    Reads .atom ts rest
  | [], rest, opened, operator, h => by
    rw [leftover_atom_nil] at h
    cases h
  | t :: ts, rest, opened, operator, h => by
    rw [leftover_atom_cons] at h
    split at h
    · next hk =>
      cases h
      exact .number hk
    · next name hk =>
      split at h
      · next dot ts =>
        split at h
        · next hmath =>
          rw [Bool.and_eq_true, isMath_iff, is_iff] at hmath
          exact .call hmath.1 hmath.2 (reads_call ts h)
        · next hmath =>
          cases h
          refine .identifier hk fun hname => avoids_cons.mpr fun s hs hdot => hmath ?_
          rw [Bool.and_eq_true, isMath_iff, is_iff]
          exact ⟨hname ▸ hk, List.mem_singleton.mp hs ▸ hdot⟩
      · cases h
        exact .identifier hk fun _ => avoids_nil _
    · next hk =>
      obtain ⟨mid, hexpr, hclose⟩ := exists_of_bind_eq_ok h
      obtain ⟨close, hk', rfl⟩ := leftover_close_eq_ok_iff.mp hclose
      exact .group hk (reads_expr ts hexpr) hk'
    · split at h <;> cases h
    · split at h <;> cases h
    · cases h
termination_by ts => (ts.length, 1)

theorem reads_call : (ts : List Token) → {rest : List Token} → {opened : List Span} →
    leftover (call finish opened ts) = .ok rest → Reads .call ts rest
  | [], rest, opened, h => by
    rw [leftover_call_nil] at h
    cases h
  | t :: ts, rest, opened, h => by
    rw [leftover_call_cons] at h
    split at h
    · next name hk =>
      split at h
      · cases h
        exact .bare hk (avoids_nil _)
      · next opening ts =>
        split at h
        · next hopen =>
          split at h
          · cases h
          · next t' ts =>
            split at h
            · next hclose =>
              cases h
              exact .noArgument hk (is_iff.mp hopen) (is_iff.mp hclose)
            · obtain ⟨close, hclose, hread⟩ := reads_arguments (t' :: ts) h
              exact .called hk (is_iff.mp hopen) hread hclose
        · next hopen =>
          cases h
          exact .bare hk (avoids_cons.mpr fun s hs h =>
            hopen (is_iff.mpr (List.mem_singleton.mp hs ▸ h)))
    · cases h
termination_by ts => (ts.length, 0)

theorem reads_arguments : (ts : List Token) → {rest : List Token} → {opened : List Span} →
    {opening : Span} → leftover (arguments finish opened opening ts) = .ok rest →
    ∃ close : Token, close.kind = .symbol .closeParen ∧ Reads .arguments ts (close :: rest)
  | ts, rest, opened, opening, h => by
    rw [leftover_arguments] at h
    obtain ⟨mid, hexpr, h⟩ := exists_of_bind_eq_ok h
    have hmid := length_lt_of_leftover hexpr
    split at h
    · cases h
    · next t mid =>
      split at h
      · next hcomma =>
        have hlt : mid.length < ts.length := Nat.lt_of_succ_lt hmid
        obtain ⟨close, hclose, hread⟩ := reads_arguments mid h
        exact ⟨close, hclose, .moreArguments (reads_expr ts hexpr) (is_iff.mp hcomma) hread⟩
      · obtain ⟨close, hclose, heq⟩ := leftover_close_eq_ok_iff.mp h
        exact ⟨close, hclose, .argument (heq ▸ reads_expr ts hexpr)⟩
termination_by ts => (ts.length, 4)

end

end

/-- Neither an operand nor an argument list starts with a closing parenthesis. -/
theorem Reads.exists_cons {rule : Rule} {ts rest : List Token} (h : Reads rule ts rest)
    (hops : rule ≠ .operands) : ∃ t ts', ts = t :: ts' ∧ t.kind ≠ .symbol .closeParen := by
  induction h with
  | expr _ _ ih _ => exact ih nofun
  | stop | operand => exact absurd rfl hops
  | unsigned _ ih => exact ih nofun
  | signed hs hk =>
    refine ⟨_, _, rfl, ?_⟩
    rw [hk]
    rintro ⟨⟩
    exact absurd hs (by decide)
  | number hk | identifier hk | call hk | group hk | bare hk | noArgument hk | called hk =>
    refine ⟨_, _, rfl, ?_⟩
    rw [hk]
    nofun
  | argument _ ih => exact ih nofun
  | moreArguments _ _ _ ih => exact ih nofun

theorem Reads.isSign_eq_false {t : Token} {ts rest : List Token} (h : Reads .atom (t :: ts) rest) :
    t.isSign = false := by
  refine Bool.eq_false_iff.mpr fun hs => ?_
  obtain ⟨s, hmem, hk⟩ := isSign_iff.mp hs
  cases h with
  | number hk' | identifier hk' | call hk' =>
    rw [hk] at hk'
    cases hk'
  | group hk' =>
    rw [hk] at hk'
    cases hk'
    exact absurd hmem (by decide)

/-- What a run of the recognizer along a rule leaves. -/
def Accepts : Rule → List Token → List Token → Prop
  | .expr, ts, rest => ∀ finish opened, leftover (expr finish opened ts) = .ok rest
  | .operands, ts, rest => ∀ finish opened, leftover (operands finish opened ts) = .ok rest
  | .term, ts, rest =>
    ∀ finish opened operator, leftover (term finish opened operator ts) = .ok rest
  | .atom, ts, rest =>
    ∀ finish opened operator, leftover (atom finish opened operator ts) = .ok rest
  | .call, ts, rest => ∀ finish opened, leftover (call finish opened ts) = .ok rest
  | .arguments, ts, rest => ∀ finish opened opening (close : Token) after,
    rest = close :: after → close.kind = .symbol .closeParen →
    leftover (arguments finish opened opening ts) = .ok after

theorem Reads.accepts {rule : Rule} {ts rest : List Token} (h : Reads rule ts rest) :
    Accepts rule ts rest := by
  induction h with
  | expr _ _ hterm hops =>
    intro finish opened
    rw [leftover_expr, hterm]
    exact hops finish opened
  | @stop ts hstop =>
    intro finish opened
    cases ts with
    | nil => exact leftover_operands_nil finish opened
    | cons t ts =>
      rw [leftover_operands_cons, if_neg]
      rw [BinaryOp.isSome_ofKind?_iff]
      rintro ⟨op, hmem, hk⟩
      exact avoids_cons.mp hstop op hmem hk
  | operand hmem hk _ _ hterm hops =>
    intro finish opened
    rw [leftover_operands_cons, if_pos (BinaryOp.isSome_ofKind?_iff.mpr ⟨_, hmem, hk⟩), hterm]
    exact hops finish opened
  | @unsigned ts rest hread hatom =>
    intro finish opened operator
    obtain ⟨t, ts, rfl, -⟩ := hread.exists_cons nofun
    rw [leftover_term_cons, hread.isSign_eq_false]
    exact hatom finish opened operator
  | signed hmem hk _ hatom =>
    intro finish opened operator
    rw [leftover_term_cons, if_pos (isSign_iff.mpr ⟨_, hmem, hk⟩)]
    exact hatom finish opened _
  | number hk =>
    intro finish opened operator
    rw [leftover_atom_cons, hk]
  | @identifier t name ts hk hdot =>
    intro finish opened operator
    rw [leftover_atom_cons, hk]
    cases ts with
    | nil => rfl
    | cons dot ts =>
      dsimp only
      rw [if_neg]
      rw [Bool.and_eq_true, isMath_iff, is_iff, hk]
      rintro ⟨hname, hd⟩
      exact avoids_cons.mp (hdot (TokenKind.identifier.inj hname)) _ (List.mem_singleton_self _) hd
  | call hk hdot _ hcall =>
    intro finish opened operator
    rw [leftover_atom_cons, hk]
    dsimp only
    rw [if_pos (by rw [Bool.and_eq_true, isMath_iff, is_iff]; exact ⟨hk, hdot⟩)]
    exact hcall finish opened
  | group hk _ hclose hexpr =>
    intro finish opened operator
    rw [leftover_atom_cons, hk]
    dsimp only
    rw [hexpr]
    exact leftover_close_eq_ok_iff.mpr ⟨_, hclose, rfl⟩
  | @bare t name ts hk hopen =>
    intro finish opened
    rw [leftover_call_cons, hk]
    cases ts with
    | nil => rfl
    | cons opening ts =>
      dsimp only
      rw [if_neg]
      rw [is_iff]
      exact avoids_cons.mp hopen _ (List.mem_singleton_self _)
  | noArgument hk hopen hclose =>
    intro finish opened
    rw [leftover_call_cons, hk]
    dsimp only
    rw [if_pos (is_iff.mpr hopen), if_pos (is_iff.mpr hclose)]
  | @called t name opening ts close rest hk hopen hread hclose hargs =>
    intro finish opened
    rw [leftover_call_cons, hk]
    dsimp only
    rw [if_pos (is_iff.mpr hopen)]
    obtain ⟨t', ts, rfl, hne⟩ := hread.exists_cons nofun
    dsimp only
    rw [if_neg (fun h => hne (is_iff.mp h))]
    exact hargs finish _ _ close rest rfl hclose
  | argument _ hexpr =>
    intro finish opened opening close after hrest hclose
    subst hrest
    rw [leftover_arguments, hexpr]
    change (if close.is .comma then _ else _) = _
    rw [if_neg (by rw [is_iff, hclose]; nofun)]
    exact leftover_close_eq_ok_iff.mpr ⟨close, hclose, rfl⟩
  | @moreArguments ts comma mid rest _ hcomma _ hexpr hargs =>
    intro finish opened opening close after hrest hclose
    rw [leftover_arguments, hexpr]
    change (if comma.is .comma then _ else _) = _
    rw [if_pos (is_iff.mpr hcomma)]
    exact hargs finish opened opening close after hrest hclose

/-- The recognizer succeeds exactly along the relation, whatever it knows for its failures. -/
theorem leftover_expr_eq_ok_iff {finish : Nat} {opened : List Span} {ts rest : List Token} :
    leftover (expr finish opened ts) = .ok rest ↔ Reads .expr ts rest :=
  ⟨reads_expr ts, fun h => h.accepts finish opened⟩

theorem sentence_eq_ok_iff {ts : List Token} : sentence ts = .ok () ↔ Reads .expr ts [] := by
  rw [← @leftover_expr_eq_ok_iff (finish ts) [], leftover_eq_ok_iff]
  unfold sentence
  constructor
  · intro h
    obtain ⟨⟨rest, hr⟩, hexpr, h⟩ := exists_of_bind_eq_ok h
    cases rest with
    | nil => exact ⟨hr, hexpr⟩
    | cons t rest => cases h
  · rintro ⟨hr, hexpr⟩
    rw [hexpr]
    rfl

end Recognizer

end Reckon
