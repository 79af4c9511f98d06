import Mathlib.Control.Monad.Basic
import Reckon.Proofs.Slice

/-! Two texts with a gap between them. No lexeme reaches over the gap, so that each text is scanned
as it is on its own, the second one further on. -/
namespace Reckon
open Text Token

def Failure.shift (n : Nat) (f : Failure) : Failure :=
  { f with span := ⟨n + f.span.start, n + f.span.stop⟩ }

/-- The text starts with a gap. -/
def StartsWithGap (text : List Char) : Prop := ∃ c cs, text = c :: cs ∧ isGap c = true

theorem isDigit_of_isGap {c : Char} (h : isGap c = true) : Decimal.isDigit c = false ∧ c ≠ '.' := by
  simp only [isGap, Bool.or_eq_true, beq_iff_eq] at h
  obtain ((rfl | rfl) | rfl) | rfl := h <;> decide

theorem isNameChar_of_isGap {c : Char} (h : isGap c = true) : isNameChar c = false := by
  simp only [isGap, Bool.or_eq_true, beq_iff_eq] at h
  obtain ((rfl | rfl) | rfl) | rfl := h <;> rfl

theorem Symbol.goesOn_of_isGap (s : Symbol) {c : Char} (h : isGap c = true) :
    s.goesOn c = false := by
  simp only [isGap, Bool.or_eq_true, beq_iff_eq] at h
  obtain ((rfl | rfl) | rfl) | rfl := h <;> cases s <;> rfl

namespace StartsWithGap
variable {after : List Char}

/-- What comes first in front of a gap, or the gap itself. -/
theorem head?_append (h : StartsWithGap after) (rest : List Char) :
    ∀ c ∈ (rest ++ after).head?, c ∈ rest.head? ∨ isGap c = true := by
  obtain ⟨d, ds, rfl, hd⟩ := h
  intro c hc
  cases rest with
  | nil =>
    cases hc
    exact .inr hd
  | cons e rest => exact .inl hc

end StartsWithGap

namespace Lexeme
variable {after rest : List Char}

theorem Exponent.not_isGap {x : List Char} (h : Exponent x) : ∀ c ∈ x, isGap c = false :=
  h.forall_mem (by simp [isGap]) fun _ hdigit => isGap_eq_false (.inl hdigit)

/-- An exponent does not reach over a gap. -/
theorem Exponent.prefix_of_append {x : List Char} (h : Exponent x) (hafter : StartsWithGap after)
    (hx : x <+: rest ++ after) : x <+: rest := by
  obtain ⟨d, ds, rfl, hd⟩ := hafter
  obtain ⟨tail, htail⟩ := hx
  obtain ⟨m, hrest, -⟩ | ⟨m, rfl, hm⟩ := List.append_eq_append_iff.mp htail
  · exact ⟨m, hrest.symm⟩
  · cases m with
    | nil => exact (List.append_nil rest).symm ▸ List.prefix_refl rest
    | cons e m =>
      obtain ⟨rfl, -⟩ := List.cons.inj hm
      have hgap := h.not_isGap d (by simp)
      rw [hd] at hgap
      cases hgap

theorem NumeralEnds.append_gap {x : List Char} (h : NumeralEnds x rest)
    (hafter : StartsWithGap after) : NumeralEnds x (rest ++ after) := by
  cases h with
  | plain hstop hnone =>
    refine .plain (fun c hc => ?_) fun x hx hfront => hnone x hx (hx.prefix_of_append hafter hfront)
    exact (hafter.head?_append rest c hc).elim (hstop c) isDigit_of_isGap
  | scientific hx hstop =>
    refine .scientific hx fun c hc => ?_
    exact (hafter.head?_append rest c hc).elim (hstop c) fun hgap => (isDigit_of_isGap hgap).1

/-- What is whole at the end of a text or before the rest of it is whole before a gap, too. -/
theorem Complete.append_gap {kind : TokenKind} {lexeme : List Char}
    (h : Complete kind lexeme rest) (hafter : StartsWithGap after) :
    Complete kind lexeme (rest ++ after) := by
  have hhead := hafter.head?_append rest
  cases h with
  | number hm hx hv => exact .number hm (hx.append_gap hafter) hv
  | identifier hc hcs hstop =>
    exact .identifier hc hcs fun c hc => (hhead c hc).elim (hstop c) isNameChar_of_isGap
  | @symbol s _ hstop =>
    exact .symbol fun c hc => (hhead c hc).elim (hstop c) s.goesOn_of_isGap

theorem Stuck.append_gap {piece : List Char} {detail : String} (h : Stuck piece rest detail)
    (hafter : StartsWithGap after) : Stuck piece (rest ++ after) detail := by
  cases h with
  | stray hc hgap => exact .stray hc hgap
  | numeral hstart hrun hx hm => exact .numeral hstart hrun (hx.append_gap hafter) hm

end Lexeme

namespace Cut
variable {after after' text : List Char} {offset : Nat} {ts : List Token}

theorem append_gap (h : Cut after offset text ts) (hafter : StartsWithGap after') :
    Cut (after ++ after') offset text ts := by
  induction h with
  | gap hgap => exact .gap hgap
  | token hgap hlexeme _ ih =>
    have hlexeme := hlexeme.append_gap hafter
    rw [List.append_assoc] at hlexeme
    exact .token hgap hlexeme ih

theorem shift (n : Nat) (h : Cut after offset text ts) :
    Cut after (n + offset) text (ts.map (Token.shift n)) := by
  induction h with
  | gap hgap => exact .gap hgap
  | token hgap hlexeme _ ih =>
    rw [← Nat.add_assoc, ← Nat.add_assoc] at ih
    have hcut := Cut.token hgap hlexeme ih
    simpa only [List.map_cons, Token.shift, Nat.add_assoc] using hcut

end Cut

namespace StuckAt
variable {text after : List Char} {offset : Nat} {f : Failure}

theorem append_gap (h : StuckAt offset text f) (hafter : StartsWithGap after) :
    StuckAt offset (text ++ after) f := by
  obtain ⟨hcut, hstuck⟩ := h
  have hcut := hcut.append_gap hafter
  rw [List.append_assoc] at hcut
  rw [List.append_assoc, List.append_assoc]
  exact .mk hcut (hstuck.append_gap hafter)

theorem shift (n : Nat) (h : StuckAt offset text f) : StuckAt (n + offset) text (f.shift n) := by
  obtain ⟨hcut, hstuck⟩ := h
  have hstuck := StuckAt.mk (hcut.shift n) hstuck
  simpa only [Failure.shift, Nat.add_assoc] using hstuck

end StuckAt

/-- The same text further on. -/
theorem tokenizeFrom_add (n offset : Nat) (text : List Char) :
    tokenizeFrom (n + offset) text =
      ((tokenizeFrom offset text).map (List.map (shift n))).mapError (Failure.shift n) := by
  cases h : tokenizeFrom offset text with
  | ok ts => exact tokenizeFrom_eq_ok_iff.mpr ((tokenizeFrom_eq_ok_iff.mp h).shift n)
  | error f => exact tokenizeFrom_eq_error_iff.mpr ((tokenizeFrom_eq_error_iff.mp h).shift n)

theorem tokenizeFrom_behind_gap {gap : List Char} (hgap : ∀ c ∈ gap, isGap c = true) (offset : Nat)
    (text : List Char) :
    tokenizeFrom offset (gap ++ text) = tokenizeFrom (offset + byteLength gap) text := by
  cases h : tokenizeFrom (offset + byteLength gap) text with
  | ok ts =>
    rw [tokenizeFrom_eq_ok_iff] at h ⊢
    exact h.behind_gap hgap
  | error f =>
    rw [tokenizeFrom_eq_error_iff] at h ⊢
    obtain ⟨hcut, hstuck⟩ := h
    have hstuck := StuckAt.mk (hcut.behind_gap hgap) hstuck
    simpa only [List.append_assoc, byteLength_append, Nat.add_assoc] using hstuck

/-- Behind the tokens of a text the scan goes on with what follows. -/
theorem tokenizeFrom_append_of_cut {after text : List Char} {offset : Nat} {ts : List Token}
    (h : Cut after offset text ts) : tokenizeFrom offset (text ++ after) =
      (tokenizeFrom (offset + byteLength text) after).map (ts ++ ·) := by
  induction h with
  | gap hgap =>
    rw [tokenizeFrom_behind_gap hgap]
    cases tokenizeFrom _ after <;> rfl
  | token hgap hlexeme _ ih =>
    rw [List.append_assoc, List.append_assoc, tokenizeFrom_complete hgap hlexeme, ih]
    simp only [byteLength_append, Nat.add_assoc]
    cases tokenizeFrom _ after <;> rfl

/-- Texts with a gap between them are scanned as they are each on its own. A failure of the first one
ends the scan. What the second one gives, tokens or a failure, stands further on by the bytes of the
first text and of the gap. -/
theorem tokenize_append_gap (a gap b : List Char) (hne : gap ≠ [])
    (hgap : ∀ c ∈ gap, isGap c = true) :
    tokenize (a ++ gap ++ b) =
      match tokenize a, tokenize b with
      | .error f, _ => .error f
      | .ok ts, .ok us => .ok (ts ++ us.map (shift (byteLength (a ++ gap))))
      | .ok _, .error f => .error (f.shift (byteLength (a ++ gap))) := by
  have hafter : StartsWithGap (gap ++ b) := by
    obtain ⟨c, cs, rfl⟩ := List.exists_cons_of_ne_nil hne
    exact ⟨c, cs ++ b, rfl, hgap c (List.mem_cons_self ..)⟩
  rw [List.append_assoc]
  cases ha : tokenize a with
  | error f =>
    have hstuck := tokenizeFrom_eq_error_iff.mp ha
    exact tokenizeFrom_eq_error_iff.mpr (hstuck.append_gap hafter)
  | ok ts =>
    have hcut := (tokenizeFrom_eq_ok_iff.mp ha).append_gap hafter
    rw [List.nil_append] at hcut
    have hbehind : tokenize (a ++ (gap ++ b)) =
        (tokenizeFrom (byteLength (a ++ gap) + 0) b).map (ts ++ ·) := by
      rw [tokenize, tokenizeFrom_append_of_cut hcut, tokenizeFrom_behind_gap hgap,
        byteLength_append, Nat.zero_add, Nat.add_zero]
    rw [hbehind, tokenizeFrom_add]
    cases hb : tokenize b with
    | ok us =>
      rw [show tokenizeFrom 0 b = .ok us from hb]
      rfl
    | error f =>
      rw [show tokenizeFrom 0 b = .error f from hb]
      rfl

/-- Two signs with a gap between them are no doubled sign, and a stray character stands where it
stands in the whole text. -/
theorem tokenize_append_gap_signs :
    tokenize ("x+".toList ++ ['\t', '\r'] ++ "+y".toList) =
        .ok [⟨.identifier "x", "x", ⟨0, 1⟩⟩, ⟨.symbol .plus, "+", ⟨1, 2⟩⟩,
          ⟨.symbol .plus, "+", ⟨4, 5⟩⟩, ⟨.identifier "y", "y", ⟨5, 6⟩⟩] ∧
      tokenize ("x+".toList ++ ['\t', '\r'] ++ "+é".toList) =
        .error ⟨.malformed (some "character 'é'"), ⟨5, 7⟩⟩ := by
  constructor
  · rw [tokenize_append_gap "x+".toList ['\t', '\r'] "+y".toList nofun
      (List.all_eq_true.mp rfl)]
    decide +kernel
  · rw [tokenize_append_gap "x+".toList ['\t', '\r'] "+é".toList nofun
      (List.all_eq_true.mp rfl)]
    decide +kernel

end Reckon
