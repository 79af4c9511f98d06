import Reckon.Math.Function
import Reckon.Proofs.Binary64.Nearest

/-! The length of a vector. Its components are taken in one after the other, and the length so far
counts like a component: once it is too large for a double it is infinite, and a NaN behind it makes
no difference any more. -/
namespace Reckon
open Binary64 (infinity nan isNegative)

namespace Elementary

/-- A number, finite or infinite, without a minus. -/
structure IsLength (x : Float) : Prop where
  isNaN : x.isNaN = false
  isNegative : isNegative x = false

variable {x y : Float} {ys : List Float}

theorem isLength_hypotenuse (x y : Float) : IsLength (hypotenuse x y) := by
  have h (m : Nat) (e : Int) := Binary64.nearestScaled_isNumber false m e
  exact ⟨(h _ _).1, (h _ _).2⟩

theorem isLength_infinity : IsLength infinity := by
  constructor <;> decide +kernel

private theorem hypot2_of_isInf (h : x.isInf = true ∨ y.isInf = true) : hypot2 x y = infinity := by
  unfold hypot2
  rw [if_pos (Bool.or_eq_true_iff.mpr h)]

private theorem hypot2_of_isNaN (hx : x.isInf = false) (hy : y.isInf = false)
    (h : x.isNaN = true ∨ y.isNaN = true) : hypot2 x y = nan := by
  have hinf : ¬ (x.isInf || y.isInf) = true := by
    rw [hx, hy]
    decide
  unfold hypot2
  rw [if_neg hinf, if_pos (Bool.or_eq_true_iff.mpr h)]

/-- With one more component the length is a length again, unless this is a NaN. -/
theorem isLength_hypot2 (hx : IsLength x) (hy : y.isNaN = false) : IsLength (hypot2 x y) := by
  by_cases hinf : x.isInf = true ∨ y.isInf = true
  · rw [hypot2_of_isInf hinf]
    exact isLength_infinity
  · have hnan : ¬ (x.isNaN || y.isNaN) = true := by
      rw [hx.isNaN, hy]
      decide
    unfold hypot2
    rw [if_neg (mt Bool.or_eq_true_iff.mp hinf), if_neg hnan]
    exact isLength_hypotenuse x y

theorem isLength_foldl (hx : IsLength x) (h : ∀ y ∈ ys, y.isNaN = false) :
    IsLength (ys.foldl hypot2 x) := by
  induction ys generalizing x with
  | nil => exact hx
  | cons y ys ih =>
    have hy := h y (List.mem_cons_self ..)
    exact ih (isLength_hypot2 hx hy) fun z hz => h z (List.mem_cons_of_mem _ hz)

private theorem foldl_infinity (ys : List Float) : ys.foldl hypot2 infinity = infinity := by
  induction ys with
  | nil => rfl
  | cons y ys ih =>
    have hstep : hypot2 infinity y = infinity := hypot2_of_isInf (.inl (by decide +kernel))
    rw [List.foldl_cons, hstep, ih]

private theorem foldl_nan (h : ∀ y ∈ ys, y.isInf = false) : ys.foldl hypot2 nan = nan := by
  induction ys with
  | nil => rfl
  | cons y ys ih =>
    have hy := h y (List.mem_cons_self ..)
    have hstep : hypot2 nan y = nan :=
      hypot2_of_isNaN (by decide +kernel) hy (.inl (by decide +kernel))
    rw [List.foldl_cons, hstep, ih fun z hz => h z (List.mem_cons_of_mem _ hz)]

theorem hypot_of_isInf {xs : List Float} (h : ∃ x ∈ xs, x.isInf = true) : hypot xs = infinity :=
  if_pos (List.any_eq_true.mpr h)

theorem hypot_eq_foldl {xs : List Float} (h : ∀ x ∈ xs, x.isInf = false) :
    hypot xs = xs.foldl hypot2 0 := by
  refine if_neg fun hany => ?_
  obtain ⟨x, hx, hinf⟩ := List.any_eq_true.mp hany
  rw [h x hx] at hinf
  cases hinf

/-- Once the length of the first components is infinite, so is the whole length. -/
theorem hypot_append_of_isInf {front after : List Float}
    (h : ∀ y ∈ front ++ x :: after, y.isInf = false) (hinf : (hypot front).isInf = true) :
    hypot (front ++ x :: after) = infinity := by
  have hfront : ∀ y ∈ front, y.isInf = false := fun y hy => h y (by simp [hy])
  rw [hypot_eq_foldl hfront] at hinf
  rw [hypot_eq_foldl h, List.foldl_append, List.foldl_cons, hypot2_of_isInf (.inl hinf),
    foldl_infinity]

/-- The first NaN meets the length of what stands in front of it. -/
theorem hypot_of_isNaN {front after : List Float}
    (h : ∀ y ∈ front ++ x :: after, y.isInf = false) (hx : x.isNaN = true) :
    hypot (front ++ x :: after) = if (hypot front).isInf then infinity else nan := by
  have hfront : ∀ y ∈ front, y.isInf = false := fun y hy => h y (by simp [hy])
  have hafter : ∀ y ∈ after, y.isInf = false := fun y hy => h y (by simp [hy])
  have hxinf : x.isInf = false := h x (by simp)
  -- whichever of the two it becomes at the NaN, it stays behind it
  by_cases hinf : (hypot front).isInf = true
  · rw [if_pos hinf, hypot_append_of_isInf h hinf]
  · have hfinite : (front.foldl hypot2 0).isInf = false := by
      rw [← hypot_eq_foldl hfront]
      exact Bool.eq_false_iff.mpr hinf
    rw [if_neg hinf, hypot_eq_foldl h, List.foldl_append, List.foldl_cons,
      hypot2_of_isNaN hfinite hxinf (.inr hx), foldl_nan hafter]

end Elementary

namespace Math.Function
open Elementary

/-- An infinite component makes the length infinite. Else the first NaN makes it NaN, unless what
stands in front of the NaN has an infinite length. Without any of these the length is a number and
not negative. -/
theorem apply_hypot (xs : List Float) :
    ((∃ x ∈ xs, x.isInf = true) → apply .hypot xs = infinity) ∧
    ((∀ x ∈ xs, x.isInf = false) → (∃ x ∈ xs, x.isNaN = true) →
      apply .hypot xs =
        if (apply .hypot (xs.takeWhile (!·.isNaN))).isInf then infinity else nan) ∧
    ((∀ x ∈ xs, x.isInf = false ∧ x.isNaN = false) →
      (apply .hypot xs).isNaN = false ∧ isNegative (apply .hypot xs) = false) := by
  have hhypot (ys : List Float) : apply .hypot ys = Elementary.hypot ys := rfl
  simp only [hhypot]
  refine ⟨hypot_of_isInf, fun hfinite hnan => ?_, fun h => ?_⟩
  · have hsplit := List.takeWhile_append_dropWhile (p := (!·.isNaN)) (l := xs)
    cases hdrop : xs.dropWhile (!·.isNaN) with
    | nil =>
      obtain ⟨x, hx, hnan⟩ := hnan
      rw [hdrop, List.append_nil] at hsplit
      rw [← hsplit] at hx
      have hall := List.all_eq_true.mp List.all_takeWhile x hx
      rw [hnan] at hall
      cases hall
    | cons x after =>
      have hstop := List.head?_dropWhile_not (!·.isNaN) xs
      rw [hdrop] at hstop hsplit
      have hx : (!x.isNaN) = false := hstop
      rw [Bool.not_eq_false'] at hx
      have hresult := hypot_of_isNaN (hsplit.symm ▸ hfinite) hx
      rwa [hsplit] at hresult
  · have hlength : IsLength (xs.foldl hypot2 0) := by
      apply isLength_foldl
      · constructor <;> decide +kernel
      · exact fun x hx => (h x hx).2
    rw [hypot_eq_foldl fun x hx => (h x hx).1]
    exact ⟨hlength.isNaN, hlength.isNegative⟩

/-- An infinity behind a NaN, a NaN behind a number, and two numbers. -/
theorem apply_hypot_special :
    apply .hypot [nan, infinity] = infinity ∧
      apply .hypot [1, nan] = nan ∧
      (apply .hypot [-3, -4]).isNaN = false ∧ isNegative (apply .hypot [-3, -4]) = false := by
  have hinf : infinity.isInf = true := by decide +kernel
  have hnan : nan.isNaN = true := by decide +kernel
  refine ⟨?_, ?_, ?_⟩
  · exact (apply_hypot [nan, infinity]).1 ⟨infinity, by simp, hinf⟩
  · have h := (apply_hypot [1, nan]).2.1 (by decide +kernel) ⟨nan, by simp, hnan⟩
    rw [h, if_neg (by decide +kernel)]
  · exact (apply_hypot [-3, -4]).2.2 (by decide +kernel)

/-- Two numbers that are too large together hide a NaN behind them, but not one in front. -/
theorem apply_hypot_overflow :
    let huge := Float.ofBits 0x7FEFFFFFFFFFFFFF
    huge.isFinite = true ∧ apply .hypot [huge, huge, nan] = infinity ∧
      apply .hypot [nan, huge, huge] = nan := by
  decide +kernel

end Math.Function
end Reckon
