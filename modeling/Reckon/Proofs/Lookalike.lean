import Reckon.Proofs.Normal
import Reckon.Proofs.ResultText

/-! Characters outside of ASCII. Normalization does not make a token out of any of them but the
Kelvin sign, so that no expression is written with them. The Kelvin sign is the letter `K`. -/
namespace Reckon
open Text Token

/-- A text with a character of no token, but for the Kelvin sign, has such a character in its normal
form too. -/
theorem lasting_foreign : Lasting fun c => !isWritten c && c != kelvin where
  wide hwide hkelvin := by simp [not_isWritten_of_le hwide, hkelvin]
  semicolon := rfl
  grave := rfl
  letter h := by simp at h
  null := rfl

/-- Of the characters outside of ASCII only the Kelvin sign is scanned. -/
theorem eq_kelvin_of_tokenize {cs : List Char} {ts : List Token}
    (h : tokenize (normalize cs) = .ok ts) : ∀ c ∈ cs, 0x80 ≤ c.toNat → c = kelvin := by
  intro c hc hwide
  by_cases hkelvin : c = kelvin
  · exact hkelvin
  have hforeign : (!isWritten c && c != kelvin) = true := by
    simp [not_isWritten_of_le hwide, hkelvin]
  obtain ⟨d, hd, hforeign⟩ := lasting_foreign.exists_mem_normalize ⟨c, hc, hforeign⟩
  have hwritten := (tokenizeFrom_eq_ok_iff.mp h).isWritten d hd
  simp [hwritten] at hforeign

/-- What is not scanned is malformed. -/
theorem malformed_of_tokenize {cs : List Char} {f : Failure} (h : tokenize cs = .error f) :
    ∃ detail span, f = ⟨.malformed (some detail), span⟩ := by
  obtain ⟨hcut, hstuck⟩ := tokenizeFrom_eq_error_iff.mp h
  exact ⟨_, _, rfl⟩

theorem byteLength_plain (cs : List Char) : byteLength (cs.map plain) ≤ byteLength cs := by
  induction cs with
  | nil => exact Nat.le_refl _
  | cons c cs ih =>
    have hc : (plain c).utf8Size ≤ c.utf8Size := by
      unfold plain
      split
      · next hkelvin =>
        subst hkelvin
        decide
      · exact Nat.le_refl _
    simp only [List.map_cons, byteLength_cons]
    omega

/-- Kelvin signs may as well be written as the letter `K`. -/
theorem evaluate_plain {source : String} {limits : Limits}
    (hlength : byteLength source.toList ≤ limits.maxSourceLength)
    (h : ∀ c ∈ source.toList, 0x80 ≤ c.toNat → c = kelvin) (b : Bindings) :
    evaluate source b limits = evaluate (String.ofList (source.toList.map plain)) b limits := by
  have hplain := normalize_of_below (lt_of_mem_map_plain h)
  have hshorter := Nat.le_trans (byteLength_plain source.toList) hlength
  rw [← String.toList_ofList (l := source.toList.map plain)] at hplain hshorter
  unfold evaluate
  rw [validate_of_short hlength, validate_of_short hshorter, normalize_plain h, hplain,
    String.toList_ofList]

/-- A text with a character outside of ASCII is malformed, whatever is bound, unless all of them are
Kelvin signs. Then it has the outcome of the text with the letter for each. -/
theorem evaluate_lookalike (source : String) (b : Bindings) (limits : Limits)
    (hlength : byteLength source.toList ≤ limits.maxSourceLength) :
    ((∃ c ∈ source.toList, 0x80 ≤ c.toNat ∧ c ≠ kelvin) →
      ∃ detail span, evaluate source b limits = .error ⟨.malformed (some detail), span⟩) ∧
    ((∀ c ∈ source.toList, 0x80 ≤ c.toNat → c = kelvin) →
      evaluate source b limits =
        evaluate (String.ofList (source.toList.map plain)) b limits) := by
  constructor
  · rintro ⟨c, hc, hwide, hkelvin⟩
    cases htokens : tokenize (normalize source.toList) with
    | ok ts => exact absurd (eq_kelvin_of_tokenize htokens c hc hwide) hkelvin
    | error f =>
      obtain ⟨detail, span, rfl⟩ := malformed_of_tokenize htokens
      refine ⟨detail, span, ?_⟩
      rw [evaluate, validate_of_short hlength, htokens]
      rfl
  · intro h
    exact evaluate_plain hlength h b

/-- A full-width plus between digits, and the Kelvin sign behind the letter. -/
theorem evaluate_lookalike_plus :
    (∃ detail span, evaluate "1\uFF0B2" Bindings.empty = .error ⟨.malformed (some detail), span⟩) ∧
      evaluate "K\u212A" Bindings.empty = evaluate "KK" Bindings.empty := by
  constructor
  · exact (evaluate_lookalike "1\uFF0B2" Bindings.empty {} (by decide)).1
      ⟨'\uFF0B', by decide, by decide, by decide⟩
  · have hchars : ∀ c ∈ ['K', kelvin], 0x80 ≤ c.toNat → c = kelvin := by
      intro c hc hwide
      rcases List.mem_cons.mp hc with rfl | hc
      · exact absurd hwide (by decide)
      · exact List.mem_singleton.mp hc
    exact (evaluate_lookalike "K\u212A" Bindings.empty {} (by decide)).2 hchars

/-- The Kelvin sign is the name `K`, so that not every text beyond ASCII is malformed. -/
theorem evaluate_kelvin :
    evaluate "\u212A" ⟨[("K", .number 1)]⟩ = .ok 1 ∧
      ¬ ∀ (source : String) (b : Bindings) (limits : Limits),
        byteLength source.toList ≤ limits.maxSourceLength →
        (∃ c ∈ source.toList, 0x80 ≤ c.toNat) →
        ∃ detail span, evaluate source b limits = .error ⟨.malformed detail, span⟩ := by
  let b : Bindings := ⟨[("K", .number 1)]⟩
  let k : Identifier := ⟨'K', [], rfl, nofun⟩
  have hletter : evaluate "K" b = .ok 1 := by
    have hspaced : Spaced (Formula.var k (by decide)).words "K".toList := .sole (.name k)
    have hvalue := mapError_evaluate hspaced (by decide) (Nat.le_of_ble_eq_true rfl) b
    exact eq_ok_of_mapError hvalue
  have hvalue : evaluate "\u212A" b = .ok 1 := by
    have hchars : ∀ c ∈ "\u212A".toList, 0x80 ≤ c.toNat → c = kelvin :=
      fun c hc _ => List.mem_singleton.mp hc
    rw [evaluate_plain (by decide) hchars]
    exact hletter
  constructor
  · exact hvalue
  · intro hclaim
    obtain ⟨detail, span, h⟩ := hclaim "\u212A" b {} (by decide) ⟨kelvin, by decide, by decide⟩
    rw [hvalue] at h
    cases h

end Reckon
