import Reckon.Proofs.Completion

/-! Which kinds of tokens stand side by side in a sentence. Only signs can stand next to each other
without a gap between them and be read as another token. -/
namespace Reckon
open Grammar

namespace TokenKind

/-- The first token of an operand: a number, a name, an opening parenthesis or a sign. -/
def startsOperand : TokenKind → Bool
  | .number _ | .identifier _ => true
  | .symbol s => s == .openParen || s.isSign

/-- Kinds that may stand side by side. A dot stands between `Math` and a name. -/
def adjoins : TokenKind → TokenKind → Bool
  | k, .symbol .dot => k.isMath
  | .number _, .symbol _ | .identifier _, .symbol _ => true
  | .symbol .dot, .identifier _ => true
  | .symbol .dot, _ => false
  | .symbol _, .symbol s => s != .plusPlus && s != .minusMinus
  | .symbol _, _ => true
  | _, _ => false

private theorem adjoins_operand {s : Symbol} {k : TokenKind}
    (hs : s ∈ .openParen :: .comma :: binaryOperators) (hk : k.startsOperand = true) :
    adjoins (.symbol s) k = true := by
  cases k with
  | number | identifier =>
    revert hs
    cases s <;> simp [adjoins, binaryOperators]
  | symbol r =>
    revert hs hk
    cases s <;> cases r <;> decide

private theorem adjoins_separator {k : TokenKind} {s : Symbol} (hk : k.endsOperand = true)
    (hs : s ∈ .closeParen :: .comma :: binaryOperators) : adjoins k (.symbol s) = true := by
  cases k with
  | number | identifier =>
    revert hs
    cases s <;> simp [adjoins, binaryOperators]
  | symbol r =>
    revert hs hk
    cases s <;> cases r <;> decide

end TokenKind

/-- Every kind may stand in front of the next one. -/
def Adjoining : List TokenKind → Prop
  | [] => True
  | k :: ks => (∀ l ∈ ks.head?, k.adjoins l = true) ∧ Adjoining ks

namespace Adjoining

theorem singleton (k : TokenKind) : Adjoining [k] := ⟨nofun, trivial⟩

theorem append {ks ls : List TokenKind} (hk : Adjoining ks) (hl : Adjoining ls)
    (h : ∀ k ∈ ks.getLast?, ∀ l ∈ ls.head?, k.adjoins l = true) : Adjoining (ks ++ ls) := by
  induction ks with
  | nil => exact hl
  | cons k ks ih =>
    cases ks with
    | nil => exact ⟨fun l => h k rfl l, hl⟩
    | cons k' ks =>
      refine ⟨hk.1, ih hk.2 fun m hm => h m ?_⟩
      rwa [List.getLast?_cons_cons]

theorem between {ks ls : List TokenKind} {k l : TokenKind} (h : Adjoining (ks ++ k :: l :: ls)) :
    k.adjoins l = true := by
  induction ks with
  | nil => exact h.1 l rfl
  | cons _ _ ih => exact ih h.2

end Adjoining

def Rule.starts : Rule → TokenKind → Prop
  | .operands, k => ∃ s ∈ binaryOperators, k = .symbol s
  | _, k => k.startsOperand = true

namespace Grammar
open TokenKind

/-- The tokens of a phrase of the rule may stand side by side, and the first one may start it. -/
structure Joined (rule : Rule) (ks : List TokenKind) : Prop where
  adjoining : Adjoining ks
  head : ∀ k ∈ ks.head?, rule.starts k

theorem Derives.last {rule : Rule} {ks : List TokenKind} (h : Derives rule ks) :
    ∀ k ∈ ks.getLast?, k.endsOperand = true := by
  intro k hk
  obtain ⟨-, rfl⟩ | ⟨k', ⟨ls, rfl⟩, hend⟩ := h.ends_operand
  · cases hk
  · rw [List.getLast?_concat] at hk
    cases hk
    exact hend

theorem Derives.ne_nil {rule : Rule} {ks : List TokenKind} (h : Derives rule ks)
    (hrule : rule ≠ .operands) : ks ≠ [] := by
  obtain ⟨hoperands, -⟩ | ⟨k, ⟨ls, rfl⟩, -⟩ := h.ends_operand
  · exact absurd hoperands hrule
  · simp

section
variable {rule : Rule} {ks ls : List TokenKind}

/-- A phrase and what follows it. -/
theorem Joined.append (hk : Joined rule ks) (hd : Derives rule ks) (hrule : rule ≠ .operands)
    (hl : Adjoining ls) (hhead : ∀ k ∈ ls.head?,
      ∃ s ∈ .closeParen :: .comma :: binaryOperators, k = .symbol s) :
    Joined rule (ks ++ ls) := by
  refine ⟨hk.adjoining.append hl fun k hkl l hll => ?_, ?_⟩
  · obtain ⟨s, hs, rfl⟩ := hhead l hll
    exact adjoins_separator (hd.last k hkl) hs
  · obtain ⟨k, ks, rfl⟩ := List.exists_cons_of_ne_nil (hd.ne_nil hrule)
    exact hk.head

theorem Joined.append_operands (hk : Joined rule ks) (hd : Derives rule ks)
    (hrule : rule ≠ .operands) (hl : Joined .operands ls) : Joined rule (ks ++ ls) := by
  refine hk.append hd hrule hl.adjoining fun k h => ?_
  obtain ⟨s, hs, rfl⟩ := hl.head k h
  exact ⟨s, List.mem_cons_of_mem _ (List.mem_cons_of_mem _ hs), rfl⟩

theorem adjoining_cons_operand {s : Symbol} (hs : s ∈ .openParen :: .comma :: binaryOperators)
    (hk : Adjoining ks) (hhead : ∀ k ∈ ks.head?, k.startsOperand = true) :
    Adjoining (.symbol s :: ks) :=
  ⟨fun k h => adjoins_operand hs (hhead k h), hk⟩

theorem adjoining_enclosed (hd : Derives rule ks) (hk : Joined rule ks) (hrule : rule ≠ .operands)
    (hstarts : ∀ k, rule.starts k → k.startsOperand = true) :
    Adjoining (.symbol .openParen :: (ks ++ [.symbol .closeParen])) := by
  have hclose : Joined rule (ks ++ [.symbol .closeParen]) := by
    refine hk.append hd hrule (.singleton _) ?_
    rintro _ ⟨⟩
    exact ⟨_, List.mem_cons_self .., rfl⟩
  exact adjoining_cons_operand (List.mem_cons_self ..) hclose.adjoining
    fun k h => hstarts k (hclose.head k h)

theorem joined_member (name : String) (hk : Adjoining ks)
    (hhead : ∀ k ∈ ks.head?, k = .symbol .openParen) :
    Joined .call (.identifier "Math" :: .symbol .dot :: .identifier name :: ks) := by
  have hname : Adjoining (.identifier name :: ks) := by
    refine ⟨fun k h => ?_, hk⟩
    rw [hhead k h]
    rfl
  refine ⟨⟨?_, ?_, hname⟩, ?_⟩ <;>
    · rintro _ ⟨⟩
      rfl

end

theorem Derives.joined {rule : Rule} {ks : List TokenKind} (h : Derives rule ks) :
    Joined rule ks := by
  induction h with
  | expr hterm _ hk hl =>
    have hjoined := hk.append_operands hterm nofun hl
    exact ⟨hjoined.adjoining, hjoined.head⟩
  | noOperand => exact ⟨trivial, nofun⟩
  | @operand op ks ls hop hterm _ hk hl =>
    have hjoined := hk.append_operands hterm nofun hl
    refine ⟨adjoining_cons_operand ?_ hjoined.adjoining hjoined.head, ?_⟩
    · exact List.mem_cons_of_mem _ (List.mem_cons_of_mem _ hop)
    · rintro _ ⟨⟩
      exact ⟨op, hop, rfl⟩
  | unsigned _ hk => exact ⟨hk.adjoining, hk.head⟩
  | @signed sign ks hs _ hk =>
    refine ⟨adjoining_cons_operand ?_ hk.adjoining hk.head, ?_⟩
    · revert hs
      cases sign <;> decide
    · rintro _ ⟨⟩
      show (TokenKind.symbol sign).startsOperand = true
      revert hs
      cases sign <;> decide
  | number value | identifier name =>
    refine ⟨.singleton _, ?_⟩
    rintro _ ⟨⟩
    rfl
  | call _ hk => exact ⟨hk.adjoining, hk.head⟩
  | group hexpr hk =>
    refine ⟨adjoining_enclosed hexpr hk nofun fun _ => id, ?_⟩
    rintro _ ⟨⟩
    rfl
  | bare name => exact joined_member name trivial nofun
  | noArgument name =>
    refine joined_member name ⟨?_, .singleton _⟩ ?_ <;>
      · rintro _ ⟨⟩
        rfl
  | called name hargs hk =>
    refine joined_member name (adjoining_enclosed hargs hk nofun fun _ => id) ?_
    rintro _ ⟨⟩
    rfl
  | argument _ hk => exact ⟨hk.adjoining, hk.head⟩
  | @moreArguments ks ls hexpr _ hk hl =>
    have hcomma : Adjoining (.symbol .comma :: ls) :=
      adjoining_cons_operand (by simp) hl.adjoining hl.head
    have hjoined := hk.append hexpr nofun hcomma <| by
      rintro _ ⟨⟩
      exact ⟨.comma, by simp, rfl⟩
    exact ⟨hjoined.adjoining, hjoined.head⟩

end Grammar

end Reckon
