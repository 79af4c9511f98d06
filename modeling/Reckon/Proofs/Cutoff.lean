import Reckon.Evaluation
import Reckon.Proofs.FirstFault
import Reckon.Proofs.Slice

/-! Limits cut evaluations off and take no other part in them. An outcome that is no refusal for a
limit is the outcome under all higher limits. -/
namespace Reckon
open Token

/-- The refusals for a limit: of a source that is too long, and of a parenthesis that is too deep. -/
inductive Limits.CutsOff (l : Limits) : Failure → Prop where
  | source : CutsOff l
      ⟨.malformed (some ("input longer than " ++ l.maxSourceLength.repr ++ " bytes")), Span.point 0⟩
  | nesting (span) : CutsOff l
      ⟨.malformed (some ("nesting deeper than " ++ l.effectiveDepth.repr)), span⟩

def Limits.Spares {α : Type} (l : Limits) (r : Except Failure α) : Prop :=
  ∀ f, r = .error f → ¬ l.CutsOff f

namespace Limits
variable {l l' : Limits}

theorem Spares.of_bind {α β : Type} {x : Except Failure α} {k : α → Except Failure β}
    (h : l.Spares (x >>= k)) : l.Spares x := by
  intro f hf
  apply h
  rw [hf]
  rfl

theorem effectiveDepth_mono (h : l.maxDepth ≤ l'.maxDepth) : l.effectiveDepth ≤ l'.effectiveDepth := by
  unfold effectiveDepth
  omega

theorem effectiveDepth_of_le (h : depthCeiling ≤ l.maxDepth) : l.effectiveDepth = depthCeiling :=
  Nat.min_eq_right h

end Limits

namespace Recognizer
variable {limit limit' depth : Nat}

/-- With a higher limit, the first pass goes on as before, up to the same fault. -/
theorem balance_eq_of_le {ts : List Token} (hle : limit ≤ limit')
    (h : ∀ span, balance limit depth ts ≠
      .error ⟨.malformed (some ("nesting deeper than " ++ limit.repr)), span⟩) :
    balance limit' depth ts = balance limit depth ts := by
  induction ts generalizing depth with
  | nil => rfl
  | cons t ts ih =>
    by_cases hopen : t.kind = .symbol .openParen
    · rw [balance_open ts hopen] at h
      rw [balance_open ts hopen, balance_open ts hopen]
      by_cases hdeep : limit < depth + 1
      · rw [if_pos hdeep] at h
        exact absurd rfl (h t.span)
      -- what the lower limit lets pass, the higher one does
      · have hdeep' : ¬ limit' < depth + 1 := by omega
        rw [if_neg hdeep] at h
        rw [if_neg hdeep, if_neg hdeep', ih h]
    by_cases hclose : t.kind = .symbol .closeParen
    · cases depth with
      | zero => rw [balance_close_zero ts hclose, balance_close_zero ts hclose]
      | succ depth =>
        rw [balance_close_succ ts hclose] at h
        rw [balance_close_succ ts hclose, balance_close_succ ts hclose, ih h]
    · rw [balance_other ts hopen hclose] at h
      rw [balance_other ts hopen hclose, balance_other ts hopen hclose, ih h]

end Recognizer

namespace Expression
open Recognizer
variable {l l' : Limits} {ts : List Token}

/-- The limits matter to the check in its first pass only. -/
theorem ofTokens?_congr
    (h : balance l'.effectiveDepth 0 ts = balance l.effectiveDepth 0 ts) :
    ofTokens? l' ts = ofTokens? l ts := by
  cases hb : balance l.effectiveDepth 0 ts with
  | error f => rw [ofTokens?_eq_error_of_balance hb, ofTokens?_eq_error_of_balance (h.trans hb)]
  | ok =>
    cases hs : sentence ts with
    | error f => rw [ofTokens?_eq_error hb hs, ofTokens?_eq_error (h.trans hb) hs]
    | ok =>
      obtain ⟨e, he⟩ := exists_ofTokens?_iff.mpr ⟨hb, hs⟩
      obtain ⟨e', he'⟩ := exists_ofTokens?_iff.mpr ⟨h.trans hb, hs⟩
      have htokens : e'.tokens = e.tokens :=
        (tokens_of_ofTokens? he').trans (tokens_of_ofTokens? he).symm
      have heq : e' = e := by
        cases e
        cases e'
        cases htokens
        rfl
      rw [he, he', heq]

theorem ofTokens?_eq_of_le (hle : l.maxDepth ≤ l'.maxDepth) (h : l.Spares (ofTokens? l ts)) :
    ofTokens? l' ts = ofTokens? l ts := by
  apply ofTokens?_congr
  apply balance_eq_of_le (Limits.effectiveDepth_mono hle)
  intro span hdeep
  exact h _ (ofTokens?_eq_error_of_balance hdeep) (.nesting span)

end Expression

section
variable {source : String} {l l' : Limits}

theorem validate_of_long (h : l.maxSourceLength < Text.byteLength source.toList) :
    ∃ f, validate source l = .error f ∧ l.CutsOff f := by
  unfold validate
  rw [if_pos h]
  exact ⟨_, rfl, .source⟩

/-- Higher limits let a text pass as before, unless it was refused for a limit. -/
theorem validate_eq_of_le (hdepth : l.maxDepth ≤ l'.maxDepth)
    (hlength : l.maxSourceLength ≤ l'.maxSourceLength) (h : l.Spares (validate source l)) :
    validate source l' = validate source l := by
  by_cases hlong : l.maxSourceLength < Text.byteLength source.toList
  · obtain ⟨f, hf, hcut⟩ := validate_of_long hlong
    exact absurd hcut (h f hf)
  have hshort := Nat.not_lt.mp hlong
  rw [validate_of_short hshort] at h
  rw [validate_of_short hshort, validate_of_short (Nat.le_trans hshort hlength)]
  cases htokens : tokenize (Text.normalize source.toList) with
  | error f => rfl
  | ok ts =>
    rw [htokens] at h
    exact Expression.ofTokens?_eq_of_le hdepth h

theorem validate_congr (hdepth : l'.effectiveDepth = l.effectiveDepth)
    (hlength : l'.maxSourceLength = l.maxSourceLength) :
    validate source l' = validate source l := by
  unfold validate
  have hcheck : Expression.ofTokens? l' = Expression.ofTokens? l := by
    funext ts
    apply Expression.ofTokens?_congr
    rw [hdepth]
  rw [hlength, hcheck]

end

/-- What is not refused for a limit has the same outcome under all higher limits, be it a value or a
failure, and above the ceiling all bounds on the depth are the same. -/
theorem evaluate_eq_of_limits (source : String) (b : Bindings) :
    (∀ l l' : Limits, l.maxDepth ≤ l'.maxDepth → l.maxSourceLength ≤ l'.maxSourceLength →
      l.Spares (evaluate source b l) → evaluate source b l' = evaluate source b l) ∧
    ∀ l l' : Limits, l'.maxSourceLength = l.maxSourceLength → 512 ≤ l.maxDepth →
      512 ≤ l'.maxDepth → evaluate source b l' = evaluate source b l := by
  constructor
  · intro l l' hdepth hlength h
    unfold evaluate
    rw [validate_eq_of_le hdepth hlength h.of_bind]
  · intro l l' hlength hdepth hdepth'
    have heffective : l'.effectiveDepth = l.effectiveDepth := by
      rw [Limits.effectiveDepth_of_le hdepth, Limits.effectiveDepth_of_le hdepth']
    unfold evaluate
    rw [validate_congr heffective hlength]

/-- A stray parenthesis in front of two that are too deep. -/
theorem evaluate_eq_of_limits_stray :
    evaluate ")((" Bindings.empty ⟨0, 8⟩ = .error ⟨.unbalanced, ⟨0, 1⟩⟩ ∧
      evaluate ")((" Bindings.empty ⟨1, 65536⟩ = .error ⟨.unbalanced, ⟨0, 1⟩⟩ ∧
      evaluate ")((" Bindings.empty ⟨600, 8⟩ = evaluate ")((" Bindings.empty ⟨512, 8⟩ := by
  let ts : List Token := [⟨.symbol .closeParen, ")", ⟨0, 1⟩⟩,
    ⟨.symbol .openParen, "(", ⟨1, 2⟩⟩, ⟨.symbol .openParen, "(", ⟨2, 3⟩⟩]
  have htokens : tokenize (Text.normalize ")((".toList) = .ok ts := by
    have hlast : Lexeme.Complete (.symbol .openParen) ['('] ([] ++ []) := .symbol nofun
    have hopen : Lexeme.Complete (.symbol .openParen) ['('] (['('] ++ []) :=
      .symbol (by rintro _ ⟨⟩; rfl)
    have hclose : Lexeme.Complete (.symbol .closeParen) [')'] (['(', '('] ++ []) :=
      .symbol (by rintro _ ⟨⟩; rfl)
    have hcut : Cut [] 0 [')', '(', '('] ts :=
      .without_gap hclose (.without_gap hopen (.without_gap hlast (.gap nofun)))
    exact tokenizeFrom_of_cut hcut rfl
  have hfails : evaluate ")((" Bindings.empty ⟨0, 8⟩ = .error ⟨.unbalanced, ⟨0, 1⟩⟩ := by
    have hcheck : Expression.ofTokens? ⟨0, 8⟩ ts = _ := Expression.ofTokens?_eq_error_of_balance rfl
    rw [evaluate, validate_of_short (by decide), htokens]
    change (Expression.ofTokens? ⟨0, 8⟩ ts >>= _) = _
    rw [hcheck]
    rfl
  have hspared : Limits.Spares ⟨0, 8⟩ (evaluate ")((" Bindings.empty ⟨0, 8⟩) := by
    intro f hf hcut
    rw [hfails] at hf
    cases hf
    cases hcut
  have h := evaluate_eq_of_limits ")((" Bindings.empty
  exact ⟨hfails, (h.1 _ ⟨1, 65536⟩ (by decide) (by decide) hspared).trans hfails,
    h.2 _ _ rfl (by decide) (by decide)⟩

end Reckon
