import Reckon.Evaluation
import Reckon.Proofs.FirstFault
import Reckon.Proofs.Substitution

/-! Sequences of the same tokens in different places. The check and the evaluation read the kinds
and the lexemes and pass the spans on, so that two such sequences have the same value, or fail for
the same reason and at the same tokens. -/
namespace Reckon
open Grammar Token

namespace Recognizer

/-- The fault of a sequence lies at the first token that no sentence has there. -/
theorem sentence_eq_faultAt {used after : List Token} {t : Token}
    (hused : Viable (used.map (·.kind))) (hnot : ¬ Viable ((used ++ [t]).map (·.kind))) :
    sentence (used ++ t :: after) = .error (faultAt (unclosed used) used.getLast? t after) := by
  have hstart {ts : List Token} (hp : used ++ [t] <+: ts) (h : Viable (ts.map (·.kind))) : False :=
    hnot (h.of_prefix (hp.map _))
  have hp : used ++ [t] <+: used ++ t :: after := ⟨after, by simp⟩
  have hlongest : LongestViable (used ++ t :: after) used.length := by
    constructor
    · rwa [List.take_left]
    · intro j _ h
      obtain hlt | hle := Nat.lt_or_ge used.length j
      · refine (hstart (List.prefix_take_iff.mpr ⟨hp, ?_⟩) h).elim
        rw [List.length_append, List.length_singleton]
        exact hlt
      · exact hle
  cases hs : sentence (used ++ t :: after) with
  | ok =>
    have hderives := sentence_eq_ok_iff_derives.mp hs
    exact (hstart hp ⟨[], by simpa [Rule.lead] using hderives⟩).elim
  | error f =>
    obtain ⟨used', t', after', heq, hused', hnot', rfl, -⟩ | ⟨h, -⟩ := exists_fault_of_error hs
    · have hlength := (heq ▸ hlongest).eq_length hused' hnot'
      obtain ⟨rfl, htail⟩ := List.append_inj heq hlength
      obtain ⟨rfl, rfl⟩ := List.cons.inj htail
      rfl
    · exact (hstart hp h).elim

end Recognizer

/-- Stretches of two sequences of tokens: from one token to another, the same in both, or nothing
but the end of the last one. -/
inductive SamePlace (ts us : List Token) : Span → Span → Prop where
  | tokens {i j : Nat} {t t' u u' : Token} : i ≤ j → ts[i]? = some t → ts[j]? = some t' →
      us[i]? = some u → us[j]? = some u' →
      SamePlace ts us (t.span.merge t'.span) (u.span.merge u'.span)
  | finish : SamePlace ts us (Span.point (finish ts)) (Span.point (finish us))

/-- The same value, or failures for the same reason and in the same place. -/
inductive SameOutcome (ts us : List Token) :
    Except Failure Float → Except Failure Float → Prop where
  | ok (x) : SameOutcome ts us (.ok x) (.ok x)
  | error {f g : Failure} : f.cause = g.cause → SamePlace ts us f.span g.span →
      SameOutcome ts us (.error f) (.error g)

/-- A token in two places. -/
structure Twin where
  kind : TokenKind
  lexeme : String
  span : Bool → Span

namespace Twin

def on (side : Bool) (z : Twin) : Token := ⟨z.kind, z.lexeme, z.span side⟩

def copy (zs : List Twin) (side : Bool) : List Token := zs.map (·.on side)

/-- Sequences of the same tokens are two copies of one. -/
theorem exists_copies {ts us : List Token} (h : us.map (·.content) = ts.map (·.content)) :
    ∃ zs, copy zs false = ts ∧ copy zs true = us := by
  induction ts generalizing us with
  | nil =>
    rw [List.map_eq_nil_iff.mp h]
    exact ⟨[], rfl, rfl⟩
  | cons t ts ih =>
    obtain ⟨u, us, rfl, hu, hus⟩ := List.map_eq_cons_iff.mp h
    obtain ⟨zs, rfl, rfl⟩ := ih hus
    obtain ⟨hkind, hlexeme⟩ := Prod.mk.inj hu
    refine ⟨⟨t.kind, t.lexeme, fun side => if side then u.span else t.span⟩ :: zs, rfl, ?_⟩
    simp only [copy, List.map_cons, on, if_true, ← hkind, ← hlexeme]

section
variable (zs : List Twin)

@[simp] theorem map_kind_copy (side : Bool) : (copy zs side).map (·.kind) = zs.map (·.kind) :=
  List.map_map

private theorem joinLexemes_copy (side : Bool) :
    joinLexemes (copy zs side) = " ".intercalate (zs.map (·.lexeme)) := by
  rw [joinLexemes, copy, List.map_map]
  rfl

private theorem getLast?_copy (side : Bool) :
    (copy zs side).getLast? = zs.getLast?.map (·.on side) :=
  List.getLast?_map

private theorem startsWith_copy (s : Symbol) (side : Bool) :
    startsWith s (copy zs side) = zs.head?.any (·.kind == .symbol s) := by
  cases zs <;> rfl

end

/-- The same result for both copies, or the same failure at the same tokens. -/
def Alike (zs : List Twin) {α : Type} (r : Bool → Except Failure α) : Prop :=
  (∃ a, ∀ side, r side = .ok a) ∨
    ∃ (c : Cause) (s : Bool → Span), SamePlace (copy zs false) (copy zs true) (s false) (s true) ∧
      ∀ side, r side = .error ⟨c, s side⟩

theorem Alike.sameOutcome {zs : List Twin} {r : Bool → Except Failure Float} (h : Alike zs r) :
    SameOutcome (copy zs false) (copy zs true) (r false) (r true) := by
  obtain ⟨v, hv⟩ | ⟨c, s, hplace, hs⟩ := h
  · rw [hv, hv]
    exact .ok v
  · rw [hs, hs]
    exact .error rfl hplace

section
variable {zs : List Twin}

theorem samePlace_tokens {i j : Nat} {z w : Twin} (hle : i ≤ j) (hz : zs[i]? = some z)
    (hw : zs[j]? = some w) : SamePlace (copy zs false) (copy zs true)
      ((z.span false).merge (w.span false)) ((z.span true).merge (w.span true)) := by
  have hcopy {k : Nat} {v : Twin} (hv : zs[k]? = some v) (side : Bool) :
      (copy zs side)[k]? = some (v.on side) := by
    rw [copy, List.getElem?_map, hv]
    rfl
  exact .tokens hle (hcopy hz false) (hcopy hw false) (hcopy hz true) (hcopy hw true)

theorem samePlace_of_mem {z : Twin} (hz : z ∈ zs) :
    SamePlace (copy zs false) (copy zs true) (z.span false) (z.span true) := by
  obtain ⟨i, hi⟩ := List.getElem?_of_mem hz
  have h := samePlace_tokens (Nat.le_refl i) hi hi
  simpa only [Span.merge, Nat.min_self, Nat.max_self] using h

theorem alike_error_of_mem {α : Type} {z : Twin} (hz : z ∈ zs) (c : Cause) :
    Alike zs fun side => (.error ⟨c, z.span side⟩ : Except Failure α) :=
  .inr ⟨c, z.span, samePlace_of_mem hz, fun _ => rfl⟩

theorem alike_error_finish {α : Type} (c : Cause) :
    Alike zs fun side => (.error ⟨c, Span.point (finish (copy zs side))⟩ : Except Failure α) :=
  .inr ⟨c, fun side => Span.point (finish (copy zs side)), .finish, fun _ => rfl⟩

end

/-- The first check counts the same parentheses. -/
theorem balance_copy (limit depth : Nat) (zs : List Twin) :
    (∀ side, Recognizer.balance limit depth (copy zs side) = .ok ()) ∨
      ∃ z ∈ zs, ∃ c, ∀ side,
        Recognizer.balance limit depth (copy zs side) = .error ⟨c, z.span side⟩ := by
  induction zs generalizing depth with
  | nil => exact .inl fun _ => rfl
  | cons z zs ih =>
    have hlater (depth' : Nat)
        (hstep : ∀ side, Recognizer.balance limit depth (copy (z :: zs) side) =
          Recognizer.balance limit depth' (copy zs side)) :
        (∀ side, Recognizer.balance limit depth (copy (z :: zs) side) = .ok ()) ∨
          ∃ w ∈ z :: zs, ∃ c, ∀ side,
            Recognizer.balance limit depth (copy (z :: zs) side) = .error ⟨c, w.span side⟩ := by
      simp only [hstep]
      obtain h | ⟨w, hw, h⟩ := ih depth'
      · exact .inl h
      · exact .inr ⟨w, List.mem_cons_of_mem _ hw, h⟩
    by_cases hopen : z.kind = .symbol .openParen
    · by_cases hlimit : limit < depth + 1
      · refine .inr ⟨z, List.mem_cons_self .., ?_⟩
        exact ⟨_, fun side => (Recognizer.balance_open _ hopen).trans (if_pos hlimit)⟩
      · refine hlater (depth + 1) fun side => ?_
        exact (Recognizer.balance_open _ hopen).trans (if_neg hlimit)
    · by_cases hclose : z.kind = .symbol .closeParen
      · cases depth with
        | zero =>
          exact .inr ⟨z, List.mem_cons_self .., _, fun side => Recognizer.balance_close_zero _ hclose⟩
        | succ depth => exact hlater depth fun side => Recognizer.balance_close_succ _ hclose
      · exact hlater depth fun side => Recognizer.balance_other _ hopen hclose

/-- The same parentheses are open. -/
theorem exists_openAfter_copy (zs : List Twin) : ∀ os : List Twin, ∃ os' : List Twin,
    (∀ z ∈ os', z ∈ os ∨ z ∈ zs) ∧ ∀ side,
      openAfter (os.map (·.span side)) (copy zs side) = os'.map (·.span side) := by
  induction zs with
  | nil => exact fun os => ⟨os, fun z hz => .inl hz, fun side => rfl⟩
  | cons z zs ih =>
    intro os
    have hlater (next : List Twin) (hnext : ∀ w ∈ next, w ∈ os ∨ w = z)
        (hstep : ∀ side, openStep (os.map (·.span side)) (z.on side) = next.map (·.span side)) :
        ∃ os' : List Twin, (∀ w ∈ os', w ∈ os ∨ w ∈ z :: zs) ∧ ∀ side,
          openAfter (os.map (·.span side)) (copy (z :: zs) side) = os'.map (·.span side) := by
      obtain ⟨os', hmem, hos'⟩ := ih next
      refine ⟨os', fun w hw => ?_, fun side => ?_⟩
      · rw [List.mem_cons]
        obtain hw | hw := hmem w hw
        · exact (hnext w hw).imp_right .inl
        · exact .inr (.inr hw)
      · rw [copy, List.map_cons, openAfter_cons, hstep]
        exact hos' side
    by_cases hopen : z.kind = .symbol .openParen
    · refine hlater (z :: os) (fun w hw => ?_) fun side => openStep_open _ hopen
      exact (List.mem_cons.mp hw).symm
    · by_cases hclose : z.kind = .symbol .closeParen
      · refine hlater os.tail (fun w hw => .inl (List.mem_of_mem_tail hw)) fun side => ?_
        rw [openStep_close _ hclose, List.map_tail]
      · refine hlater os (fun w hw => .inl hw) fun side => ?_
        unfold openStep
        split
        · next hk => exact absurd hk hopen
        · next hk => exact absurd hk hclose
        · rfl

theorem exists_unclosed_copy (zs : List Twin) : ∃ os : List Twin, (∀ z ∈ os, z ∈ zs) ∧
    ∀ side, unclosed (copy zs side) = os.map (·.span side) := by
  obtain ⟨os, hmem, hos⟩ := exists_openAfter_copy zs []
  exact ⟨os, fun z hz => (hmem z hz).resolve_left (List.not_mem_nil), hos⟩

section
variable {α : Type} {zs : List Twin}

/-- What is left over reaches from the same token to the last one. -/
theorem alike_trailing {used after : List Twin} {z : Twin} (hzs : zs = used ++ z :: after) :
    Alike zs fun side => (.error ⟨.trailing (joinLexemes (z.on side :: copy after side)),
      (z.span side).merge ((z.on side :: copy after side).getLast (List.cons_ne_nil _ _)).span⟩ :
        Except Failure α) := by
  obtain ⟨w, hw⟩ : ∃ w, (z :: after).getLast? = some w :=
    ⟨_, List.getLast?_eq_some_getLast (List.cons_ne_nil z after)⟩
  have hrest (side : Bool) : z.on side :: copy after side = copy (z :: after) side := rfl
  have hfirst : zs[used.length]? = some z := by simp [hzs]
  have hfinal : zs[zs.length - 1]? = some w := by
    rw [← List.getLast?_eq_getElem?, hzs, List.getLast?_append, hw]
    rfl
  have hle : used.length ≤ zs.length - 1 := by simp [hzs]
  refine .inr ⟨.trailing (" ".intercalate ((z :: after).map (·.lexeme))),
    fun side => (z.span side).merge (w.span side), samePlace_tokens hle hfirst hfinal,
    fun side => ?_⟩
  have hspan : (z.on side :: copy after side).getLast (List.cons_ne_nil _ _) = w.on side := by
    have h := getLast?_copy (z :: after) side
    rw [hw, ← hrest, List.getLast?_eq_some_getLast (List.cons_ne_nil _ _)] at h
    exact Option.some.inj h
  dsimp only
  rw [hspan, hrest, joinLexemes_copy]
  rfl

/-- The fault at the same token. -/
theorem alike_faultAt {used after : List Twin} {z : Twin} (hzs : zs = used ++ z :: after) :
    Alike zs fun side => (.error (Recognizer.faultAt (unclosed (copy used side))
      (copy used side).getLast? (z.on side) (copy after side)) : Except Failure α) := by
  have hz : z ∈ zs := by simp [hzs]
  have hunexpected : Alike zs fun side =>
      (.error (Recognizer.unexpected (z.on side)) : Except Failure α) :=
    alike_error_of_mem hz (.malformed (some ("at '" ++ z.lexeme ++ "'")))
  obtain ⟨os, -, hos⟩ := exists_unclosed_copy used
  simp only [hos, getLast?_copy]
  cases hlast : used.getLast? with
  | none => exact hunexpected
  | some p =>
    have hp : p ∈ zs := by
      have := List.mem_of_getLast? hlast
      simp [hzs, this]
    have hoperator (side : Bool) : (p.on side).isOperator = (p.on false).isOperator := rfl
    have hcloser (side : Bool) : ((z.on side).is .closeParen || (z.on side).is .comma) =
      ((z.on false).is .closeParen || (z.on false).is .comma) := rfl
    have hend (side : Bool) : (p.on side).kind.endsOperand = p.kind.endsOperand := rfl
    simp only [Option.map_some, Recognizer.faultAt, hoperator, hcloser, hend]
    by_cases hmissing :
        ((p.on false).isOperator && ((z.on false).is .closeParen || (z.on false).is .comma)) = true
    · simp only [if_pos hmissing]
      exact alike_error_of_mem hp (.missingOperand p.lexeme)
    · simp only [if_neg hmissing]
      by_cases hends : p.kind.endsOperand = true
      · simp only [if_pos hends]
        cases os with
        | cons o os => exact alike_error_of_mem hz .unbalanced
        | nil => exact alike_trailing hzs
      · simp only [if_neg hends]
        exact hunexpected

/-- The fault at the end of both. -/
theorem alike_faultAtEnd : Alike zs fun side =>
    (.error (Recognizer.faultAtEnd (finish (copy zs side)) (unclosed (copy zs side))
      (copy zs side).getLast?) : Except Failure α) := by
  obtain ⟨os, hmem, hos⟩ := exists_unclosed_copy zs
  simp only [hos, getLast?_copy]
  have hunfinished : Alike zs fun side =>
      (.error (Recognizer.faultAtEnd (finish (copy zs side)) (os.map (·.span side)) none) :
        Except Failure α) := by
    cases os with
    | nil => exact alike_error_finish _
    | cons o os => exact alike_error_of_mem (hmem o (List.mem_cons_self ..)) .unbalanced
  cases hlast : zs.getLast? with
  | none => exact hunfinished
  | some p =>
    have hoperator (side : Bool) : (p.on side).isOperator = (p.on false).isOperator := rfl
    have hdot (side : Bool) : (p.on side).is .dot = (p.on false).is .dot := rfl
    simp only [Option.map_some, Recognizer.faultAtEnd, hoperator, hdot]
    by_cases hmissing : (p.on false).isOperator = true
    · simp only [if_pos hmissing]
      exact alike_error_of_mem (List.mem_of_getLast? hlast) (.missingOperand p.lexeme)
    · simp only [if_neg hmissing]
      by_cases hends : (p.on false).is .dot = true
      · simp only [if_pos hends]
        exact alike_error_finish _
      · simp only [if_neg hends]
        exact hunfinished

end

theorem alike_sentence (zs : List Twin) :
    Alike zs fun side => Recognizer.sentence (copy zs side) := by
  by_cases hderives : Derives .expr (zs.map (·.kind))
  · refine .inl ⟨(), fun side => Recognizer.sentence_eq_ok_iff_derives.mpr ?_⟩
    rwa [map_kind_copy]
  by_cases hviable : Viable (zs.map (·.kind))
  · have hfault (side : Bool) := (@Recognizer.sentence_eq_faultAtEnd (copy zs side)
      (by rwa [map_kind_copy]) (by rwa [map_kind_copy])).1
    simp only [hfault]
    exact alike_faultAtEnd
  obtain ⟨f, hf⟩ : ∃ f, Recognizer.sentence (copy zs false) = .error f := by
    cases hs : Recognizer.sentence (copy zs false) with
    | error f => exact ⟨f, rfl⟩
    | ok =>
      have h := Recognizer.sentence_eq_ok_iff_derives.mp hs
      rw [map_kind_copy] at h
      exact absurd h hderives
  obtain ⟨_, _, _, hsplit, hused, hnot, -⟩ | ⟨h, -⟩ := Recognizer.exists_fault_of_error hf
  · obtain ⟨used, rest, rfl, rfl, hrest⟩ := List.map_eq_append_iff.mp hsplit
    obtain ⟨z, after, rfl, rfl, rfl⟩ := List.map_eq_cons_iff.mp hrest
    have hkinds (side : Bool) (vs : List Twin) :
        (copy vs side).map (·.kind) = (copy vs false).map (·.kind) := by
      rw [map_kind_copy, map_kind_copy]
    have hfault (side : Bool) : Recognizer.sentence (copy (used ++ z :: after) side) =
        .error (Recognizer.faultAt (unclosed (copy used side)) (copy used side).getLast? (z.on side)
          (copy after side)) := by
      have hviable : Viable ((copy used side).map (·.kind)) := hkinds side used ▸ hused
      have hstop : ¬ Viable ((copy used side ++ [z.on side]).map (·.kind)) := by
        have h := hkinds side (used ++ [z])
        simp only [copy, List.map_append, List.map_singleton] at h hnot ⊢
        rwa [h]
      have h := @Recognizer.sentence_eq_faultAt _ (copy after side) _ hviable hstop
      rwa [copy, List.map_append, List.map_cons]
    simp only [hfault]
    exact alike_faultAt rfl
  · rw [map_kind_copy] at h
    exact absurd h hviable

/-- The names stand for the same things. -/
theorem exists_occurrences_copy (behindDot : Bool) (zs : List Twin) :
    ∃ os : List (Twin × Use), (∀ o ∈ os, o.1 ∈ zs) ∧ ∀ side,
      occurrences behindDot (copy zs side) = os.map fun o => ⟨o.1.on side, o.2⟩ := by
  induction zs generalizing behindDot with
  | nil => exact ⟨[], nofun, fun _ => rfl⟩
  | cons z zs ih =>
    have hlater (first : List (Twin × Use)) (hfirst : ∀ o ∈ first, o.1 = z) (behindDot' : Bool)
        (hstep : ∀ side, occurrences behindDot (copy (z :: zs) side) =
          first.map (fun o => ⟨o.1.on side, o.2⟩) ++ occurrences behindDot' (copy zs side)) :
        ∃ os : List (Twin × Use), (∀ o ∈ os, o.1 ∈ z :: zs) ∧ ∀ side,
          occurrences behindDot (copy (z :: zs) side) = os.map fun o => ⟨o.1.on side, o.2⟩ := by
      obtain ⟨os, hmem, hos⟩ := ih behindDot'
      refine ⟨first ++ os, fun o ho => ?_, fun side => ?_⟩
      · rw [List.mem_cons]
        exact (List.mem_append.mp ho).imp (hfirst o) (hmem o)
      · rw [hstep, hos, List.map_append]
    have hcons (side : Bool) : copy (z :: zs) side = z.on side :: copy zs side := rfl
    cases hk : z.kind with
    | number x =>
      refine hlater [] nofun ((z.on false).is .dot) fun side => ?_
      rw [hcons, occurrences]
      simp only [on, hk]
      rfl
    | symbol s =>
      refine hlater [] nofun (s == .dot) fun side => ?_
      rw [hcons, occurrences_symbol hk]
      rfl
    | identifier name =>
      by_cases hbehind : behindDot = true
      · let use : Use := if zs.head?.any (·.kind == .symbol .openParen) then .called else .bare
        refine hlater [(z, use)] (by simp) false fun side => ?_
        rw [hcons, occurrences, startsWith_copy]
        simp [on, hk, hbehind, use]
      · by_cases hmath : ((z.on false).isMath && zs.head?.any (·.kind == .symbol .dot)) = true
        · refine hlater [] nofun false fun side => ?_
          have hmath' : ((z.on side).isMath && zs.head?.any (·.kind == .symbol .dot)) = true :=
            hmath
          rw [hcons, occurrences, startsWith_copy, startsWith_copy]
          simp [hmath', show (z.on side).kind = .identifier name from hk, hbehind]
        · refine hlater [(z, .read)] (by simp) false fun side => ?_
          have hmath' : ¬ ((z.on side).isMath && zs.head?.any (·.kind == .symbol .dot)) = true :=
            hmath
          rw [hcons, occurrences, startsWith_copy, startsWith_copy]
          simp only [hmath', show (z.on side).kind = .identifier name from hk, hbehind]
          rfl

end Twin

def Token.bare (t : Token) : Token := ⟨t.kind, t.lexeme, Span.point 0⟩

/-- Expressions of the same tokens have the same value, or fail for the same reason. -/
theorem Expression.mapError_value_congr {x y : Expression}
    (h : x.tokens.map bare = y.tokens.map bare) (b : Bindings) :
    (x.value b).mapError (·.cause) = (y.value b).mapError (·.cause) := by
  have hbare (x : Expression) : ∃ e, Phrase.Spells (.chain .sum e) (x.tokens.map bare) ∧
      (e.value b).mapError (·.cause) = (x.value b).mapError (·.cause) := by
    obtain ⟨e, he, hvalue⟩ := x.exists_tree
    have hvar (t : Token) (name : String) (hk : t.kind = .identifier name) :
        Phrase.Spells (.atom (.var t.bare)) [t.bare] := .var (t := t.bare) hk
    obtain ⟨ls, hls, heq⟩ := he.rewrite (φ := bare) (fun _ => rfl) hvar (avoids_nil _)
    rw [List.append_nil, rewrite_singleton] at heq
    have hls' : ls = x.tokens.map bare := (heq.trans (List.append_nil ls)).symm
    refine ⟨e.replace bare fun t => .var t.bare, hls' ▸ hls, ?_⟩
    rw [hvalue]
    have hname (t : Token) : ((Tree.var t.bare).value b).mapError (·.cause) =
        (Resolution.variableValue b t).mapError (·.cause) :=
      Resolution.mapError_variableValue_congr rfl rfl
    exact Tree.value_replace (φ := bare) (fun _ => rfl) hname e
  obtain ⟨e, he, hvalue⟩ := hbare x
  obtain ⟨e', he', hvalue'⟩ := hbare y
  rw [← hvalue, ← hvalue', he.tree_unique (h ▸ he')]

namespace Twin
variable {zs : List Twin}

theorem alike_value {x : Bool → Expression} (hx : ∀ side, (x side).tokens = copy zs side)
    (b : Bindings) : Alike zs fun side => (x side).value b := by
  obtain ⟨os, hmem, hos⟩ := exists_occurrences_copy false zs
  let cause? (o : Twin × Use) : Option (Cause × Twin) :=
    (Occurrence.cause? b ⟨o.1.on false, o.2⟩).map (·, o.1)
  have hfailure (side : Bool) : failureOf ((x side).value b) =
      (os.findSome? cause?).map fun p => ⟨p.1, p.2.span side⟩ := by
    rw [Expression.failureOf_value, hx, hos, List.findSome?_map, List.map_findSome?]
    refine congrArg (os.findSome? ·) (funext fun o => ?_)
    simp only [cause?, Function.comp_apply, Option.map_map]
    rfl
  cases hfirst : os.findSome? cause? with
  | some p =>
    have hp : p.2 ∈ zs := by
      obtain ⟨o, ho, hcause⟩ := List.exists_of_findSome?_eq_some hfirst
      obtain ⟨c, -, rfl⟩ := Option.map_eq_some_iff.mp hcause
      exact hmem o ho
    refine .inr ⟨p.1, p.2.span, samePlace_of_mem hp, fun side => ?_⟩
    rw [← failureOf_eq_some_iff, hfailure, hfirst]
    rfl
  | none =>
    have hok (side : Bool) : ∃ v, (x side).value b = .ok v := by
      rw [← failureOf_eq_none_iff, hfailure, hfirst]
      rfl
    obtain ⟨v, hv⟩ := hok false
    refine .inl ⟨v, fun side => ?_⟩
    obtain ⟨w, hw⟩ := hok side
    have hbare : (x false).tokens.map bare = (x side).tokens.map bare := by
      rw [hx, hx, copy, copy, List.map_map, List.map_map]
      rfl
    have h := Expression.mapError_value_congr hbare b
    rw [hv, hw] at h
    exact hw.trans (congrArg _ (Except.ok.inj h).symm)

/-- Check and evaluation of the two copies. -/
theorem alike_check_value (zs : List Twin) (limits : Limits) (b : Bindings) :
    Alike zs fun side => Expression.ofTokens? limits (copy zs side) >>= fun x => x.value b := by
  obtain hbalance | ⟨z, hz, c, hbalance⟩ := balance_copy limits.effectiveDepth 0 zs
  · obtain ⟨⟨⟩, hsentence⟩ | ⟨c, s, hplace, hsentence⟩ := alike_sentence zs
    · have hcheck (side : Bool) := Expression.exists_ofTokens?_iff.mpr
        ⟨hbalance side, hsentence side⟩
      let x (side : Bool) : Expression := (hcheck side).choose
      have hx (side : Bool) : Expression.ofTokens? limits (copy zs side) = .ok (x side) :=
        (hcheck side).choose_spec
      simp only [hx]
      exact alike_value (fun side => Expression.tokens_of_ofTokens? (hx side)) b
    · refine .inr ⟨c, s, hplace, fun side => ?_⟩
      have hcheck := Expression.ofTokens?_eq_error (hbalance side) (hsentence side)
      dsimp only
      rw [hcheck]
      rfl
  · refine .inr ⟨c, z.span, samePlace_of_mem hz, fun side => ?_⟩
    have hcheck := Expression.ofTokens?_eq_error_of_balance (hbalance side)
    dsimp only
    rw [hcheck]
    rfl

end Twin

/-- Check and evaluation of the same tokens in different places have the same outcome. -/
theorem sameOutcome_of_content {ts us : List Token}
    (h : us.map (·.content) = ts.map (·.content)) (limits : Limits) (b : Bindings) :
    SameOutcome ts us (Expression.ofTokens? limits ts >>= fun x => x.value b)
      (Expression.ofTokens? limits us >>= fun x => x.value b) := by
  obtain ⟨zs, rfl, rfl⟩ := Twin.exists_copies h
  exact (Twin.alike_check_value zs limits b).sameOutcome

end Reckon
