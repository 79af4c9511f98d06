import Reckon.Proofs.Reading

/-! Runs with bounded stacks, which stop where a stack has no room, and what they have in common with
the runs without bounds. The count of parentheses is kept as an invariant: it tells at every token
how many more may be opened. -/
namespace Reckon
open Token

/-- How a run with bounded stacks ends without a result. -/
inductive Stop where
  | failed (f : Failure)
  /-- A stack has no room for what has to go on it. -/
  | exceeded
deriving DecidableEq, Repr

def unbounded {α : Type} (x : Except Failure α) : Except Stop α := x.mapError .failed

/-- A bounded run ends as the run without bounds does, with a result of which `P` holds. -/
inductive Agrees {α : Type} (P : α → Prop) : Except Stop α → Except Failure α → Prop where
  | ok {a} : P a → Agrees P (.ok a) (.ok a)
  | failed (f) : Agrees P (.error (.failed f)) (.error f)

namespace Agrees
variable {α β : Type} {P : α → Prop} {Q : β → Prop}

theorem eq_unbounded {x : Except Stop α} {y : Except Failure α} (h : Agrees P x y) :
    x = unbounded y := by
  cases h <;> rfl

theorem of_run {y : Except Failure α} (h : ∀ a, y = .ok a → P a) : Agrees P (unbounded y) y := by
  cases y with
  | ok a => exact .ok (h a rfl)
  | error f => exact .failed f

theorem bind {x : Except Stop α} {y : Except Failure α} {k : α → Except Stop β}
    {l : α → Except Failure β} (h : Agrees P x y) (hk : ∀ a, P a → Agrees Q (k a) (l a)) :
    Agrees Q (x >>= k) (y >>= l) := by
  cases h with
  | ok ha => exact hk _ ha
  | failed f => exact .failed f

end Agrees

namespace Recognizer

/-- As many parentheses may be open as the limit allows, of which `depth` are. -/
def Fits (limit depth : Nat) (ts : List Token) : Prop := balance limit depth ts = .ok ()

namespace Fits
variable {limit depth : Nat} {t : Token} {ts : List Token}

theorem behind_open (h : Fits limit depth (t :: ts)) (hk : t.kind = .symbol .openParen) :
    depth < limit ∧ Fits limit (depth + 1) ts := by
  unfold Fits balance at h
  rw [hk] at h
  dsimp only at h
  by_cases hlimit : limit < depth + 1
  · rw [if_pos hlimit] at h
    cases h
  · rw [if_neg hlimit] at h
    exact ⟨by omega, h⟩

theorem behind_close (h : Fits limit (depth + 1) (t :: ts)) (hk : t.kind = .symbol .closeParen) :
    Fits limit depth ts := by
  unfold Fits balance at h
  rw [hk] at h
  exact h

theorem behind (h : Fits limit depth (t :: ts)) (hopen : t.kind ≠ .symbol .openParen)
    (hclose : t.kind ≠ .symbol .closeParen) : Fits limit depth ts := by
  unfold Fits balance at h
  split at h
  · next hk => exact absurd hk hopen
  · next hk => exact absurd hk hclose
  · exact h

theorem behind_symbol (h : Fits limit depth (t :: ts)) {s : Symbol} (hk : t.kind = .symbol s)
    (hs : s ≠ .openParen ∧ s ≠ .closeParen) : Fits limit depth ts := by
  apply h.behind
  · intro hopen
    exact hs.1 (TokenKind.symbol.inj (hk.symm.trans hopen))
  · intro hclose
    exact hs.2 (TokenKind.symbol.inj (hk.symm.trans hclose))

theorem behind_operator (h : Fits limit depth (t :: ts)) {op : BinaryOp}
    (hop : BinaryOp.ofKind? t.kind = some op) : Fits limit depth ts := by
  obtain ⟨s, hs, hk⟩ := BinaryOp.isSome_ofKind?_iff.mp (Option.isSome_of_eq_some hop)
  have hparens : ∀ s ∈ Grammar.binaryOperators, s ≠ .openParen ∧ s ≠ .closeParen := by decide
  exact h.behind_symbol hk (hparens s hs)

theorem behind_sign (h : Fits limit depth (t :: ts)) (hsign : t.isSign = true) :
    Fits limit depth ts := by
  obtain ⟨s, hs, hk⟩ := isSign_iff.mp hsign
  have hparens : ∀ s ∈ Grammar.signs, s ≠ .openParen ∧ s ≠ .closeParen := by decide
  exact h.behind_symbol hk (hparens s hs)

theorem behind_closing (h : Fits limit (depth + 1) ts) {opening : Span} {left : Shorter ts}
    (hleft : close opening ts = .ok left) : Fits limit depth left.1 := by
  have hleftover : leftover (close opening ts) = .ok left.1 := by
    rw [hleft]
    rfl
  obtain ⟨t, hk, hts⟩ := leftover_close_eq_ok_iff.mp hleftover
  rw [hts] at h
  exact h.behind_close hk

end Fits

end Recognizer
end Reckon
