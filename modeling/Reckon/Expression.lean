import Reckon.Limits
import Reckon.Recognizer

/-! Token sequences that are known to be expressions. -/
namespace Reckon

/-- Tokens that the grammar derives, with a bound on the parentheses that are open at a time. -/
structure Expression where
  tokens : List Token
  derivable : Recognizer.sentence tokens = .ok ()
  bounded : ∃ limit ≤ Limits.depthCeiling, Recognizer.balance limit 0 tokens = .ok ()

namespace Expression

/-- Checks a token sequence: first its parentheses, then its form. -/
def ofTokens? (limits : Limits) (tokens : List Token) : Except Failure Expression :=
  match hb : Recognizer.balance limits.effectiveDepth 0 tokens with
  | .error f => .error f
  | .ok () =>
    match hs : Recognizer.sentence tokens with
    | .error f => .error f
    | .ok () => .ok ⟨tokens, hs, limits.effectiveDepth, limits.effectiveDepth_le, hb⟩

section
variable {limits : Limits} {tokens : List Token}

theorem tokens_of_ofTokens? {e : Expression} (h : ofTokens? limits tokens = .ok e) :
    e.tokens = tokens := by
  unfold ofTokens? at h
  split at h
  · cases h
  · split at h
    · cases h
    · cases h; rfl

theorem ofTokens?_eq_error_iff {f : Failure} :
    ofTokens? limits tokens = .error f ↔
      Recognizer.balance limits.effectiveDepth 0 tokens = .error f ∨
        Recognizer.balance limits.effectiveDepth 0 tokens = .ok () ∧
          Recognizer.sentence tokens = .error f := by
  unfold ofTokens?
  split
  · next hb => simp [hb]
  · next hb =>
    split
    · next hs => simp [hb, hs]
    · next hs => simp [hb, hs]

theorem ofTokens?_eq_error_of_balance {f : Failure}
    (h : Recognizer.balance limits.effectiveDepth 0 tokens = .error f) :
    ofTokens? limits tokens = .error f := ofTokens?_eq_error_iff.mpr (.inl h)

theorem ofTokens?_eq_error {f : Failure}
    (hbalance : Recognizer.balance limits.effectiveDepth 0 tokens = .ok ())
    (h : Recognizer.sentence tokens = .error f) :
    ofTokens? limits tokens = .error f := ofTokens?_eq_error_iff.mpr (.inr ⟨hbalance, h⟩)

theorem exists_ofTokens?_iff :
    (∃ e, ofTokens? limits tokens = .ok e) ↔
      Recognizer.balance limits.effectiveDepth 0 tokens = .ok () ∧
        Recognizer.sentence tokens = .ok () := by
  unfold ofTokens?
  split
  · next hb => simp [hb]
  · next hb =>
    split
    · next hs => simp [hb, hs]
    · next hs => simp [hb, hs]

end

end Expression

end Reckon
