import Mathlib.Data.List.Basic
import Mathlib.Order.Bounds.Basic
import Mathlib.Order.Lattice
import Mathlib.Order.OrderDual
import Reckon.Math.Function
import Reckon.Proofs.Binary64.Order

/-! The greatest and the least of a list of doubles. Either is picked by a linear order of the
numbers, so that neither the order of the arguments nor how often they occur makes a difference. -/
namespace Reckon

namespace Binary64

/-- A NaN is a NaN in the end, wherever it stands. -/
theorem extremum_of_isNaN (prefer : Float → Float → Bool) (best : Float) {xs : List Float}
    (h : ∃ x ∈ xs, x.isNaN = true) : extremum prefer best xs = nan := by
  induction xs generalizing best with
  | nil =>
    obtain ⟨x, hx, -⟩ := h
    cases hx
  | cons x xs ih =>
    rw [extremum]
    by_cases hx : x.isNaN = true
    · rw [if_pos hx]
    · rw [if_neg hx]
      apply ih
      obtain ⟨y, hy, hnan⟩ := h
      rcases List.mem_cons.mp hy with rfl | hy
      · exact absurd hnan hx
      · exact ⟨y, hy, hnan⟩

/-- A preference among numbers that is for the greater one in a linear order of them. -/
structure Picks {α : Type} [LinearOrder α] (value : α → Float) (prefer : Float → Float → Bool) :
    Prop where
  isNaN (a : α) : (value a).isNaN = false
  injective : Function.Injective value
  exists_eq (x : Float) : x.isNaN = false → ∃ a, value a = x
  le_of_prefer {a b : α} : prefer (value a) (value b) = true → b ≤ a
  le_of_not_prefer {a b : α} : prefer (value a) (value b) = false → a ≤ b

namespace Picks
variable {α : Type} [LinearOrder α] {value : α → Float} {prefer : Float → Float → Bool}

/-- One more number is taken in: what is best then is the greater of it and the best before. -/
theorem extremum_cons (h : Picks value prefer) (best a : α) (xs : List Float) :
    extremum prefer (value best) (value a :: xs) = extremum prefer (value (max best a)) xs := by
  have hnan : ¬ (value a).isNaN = true := by
    rw [h.isNaN]
    exact Bool.false_ne_true
  have hbest : (if prefer (value a) (value best) then value a else value best) =
      value (max best a) := by
    split
    · next hprefer => rw [max_eq_right (h.le_of_prefer hprefer)]
    · next hprefer =>
      rw [max_eq_left (h.le_of_not_prefer (Bool.eq_false_iff.mpr hprefer))]
  rw [extremum, if_neg hnan, hbest]

/-- Of numbers the greatest is found, the one at the start included. -/
theorem exists_extremum (h : Picks value prefer) (best : α) (as : List α) :
    ∃ g, extremum prefer (value best) (as.map value) = value g ∧
      IsGreatest (insert best {a | a ∈ as}) g := by
  induction as generalizing best with
  | nil => exact ⟨best, rfl, by simp, by simp⟩
  | cons a as ih =>
    obtain ⟨g, hg, hmem, hupper⟩ := ih (max best a)
    refine ⟨g, (h.extremum_cons best a _).trans hg, ?_, ?_⟩
    · rcases hmem with rfl | hmem
      · rcases max_choice best a with hmax | hmax <;> rw [hmax] <;> simp
      · exact Set.mem_insert_of_mem _ (List.mem_cons_of_mem _ hmem)
    · have hmax : max best a ≤ g := hupper (Set.mem_insert _ _)
      intro b hb
      rcases hb with rfl | hb
      · exact (le_max_left _ _).trans hmax
      rcases List.mem_cons.mp hb with rfl | hb
      · exact (le_max_right _ _).trans hmax
      · exact hupper (Set.mem_insert_of_mem _ hb)

/-- Arguments with a NaN among them, or numbers. -/
theorem exists_isNaN_or_map (h : Picks value prefer) (xs : List Float) :
    (∃ x ∈ xs, x.isNaN = true) ∨ ∃ as : List α, as.map value = xs := by
  induction xs with
  | nil => exact .inr ⟨[], rfl⟩
  | cons x xs ih =>
    cases hx : x.isNaN with
    | true => exact .inl ⟨x, List.mem_cons_self .., hx⟩
    | false =>
      obtain ⟨a, rfl⟩ := h.exists_eq x hx
      rcases ih with ⟨y, hy, hnan⟩ | ⟨as, rfl⟩
      · exact .inl ⟨y, List.mem_cons_of_mem _ hy, hnan⟩
      · exact .inr ⟨a :: as, rfl⟩

theorem not_exists_isNaN (h : Picks value prefer) (as : List α) :
    ¬ ∃ x ∈ as.map value, x.isNaN = true := by
  rintro ⟨x, hx, hnan⟩
  obtain ⟨a, -, rfl⟩ := List.mem_map.mp hx
  rw [h.isNaN] at hnan
  cases hnan

section orderBot
variable [OrderBot α]

theorem exists_greatest (h : Picks value prefer) {as : List α} (has : as ≠ []) :
    ∃ g, IsGreatest {a | a ∈ as} g ∧ extremum prefer (value ⊥) (as.map value) = value g := by
  obtain ⟨g, hg, hmem, hupper⟩ := h.exists_extremum ⊥ as
  refine ⟨g, ⟨?_, fun a ha => hupper (Set.mem_insert_of_mem _ ha)⟩, hg⟩
  rcases hmem with rfl | hmem
  · -- the least number is the greatest only if there is no other
    obtain ⟨a, ha⟩ := List.exists_mem_of_ne_nil as has
    have hbot : a = ⊥ := bot_unique (hupper (Set.mem_insert_of_mem _ ha))
    exact hbot ▸ ha
  · exact hmem

theorem exists_isLUB (h : Picks value prefer) (as : List α) :
    ∃ g, IsLUB {a | a ∈ as} g ∧ extremum prefer (value ⊥) (as.map value) = value g := by
  obtain ⟨g, hg, hgreatest⟩ := h.exists_extremum ⊥ as
  refine ⟨g, ⟨fun a ha => hgreatest.2 (Set.mem_insert_of_mem _ ha), fun b hb => ?_⟩, hg⟩
  rcases hgreatest.1 with rfl | hmem
  · exact bot_le
  · exact hb hmem

/-- Only which arguments there are matters. -/
theorem extremum_congr (h : Picks value prefer) {xs ys : List Float}
    (hsame : ∀ x, x ∈ xs ↔ x ∈ ys) :
    extremum prefer (value ⊥) xs = extremum prefer (value ⊥) ys := by
  rcases h.exists_isNaN_or_map xs with hnan | ⟨as, rfl⟩
  · have hnan' : ∃ x ∈ ys, x.isNaN = true := by simpa only [hsame] using hnan
    rw [extremum_of_isNaN prefer _ hnan, extremum_of_isNaN prefer _ hnan']
  rcases h.exists_isNaN_or_map ys with hnan | ⟨bs, rfl⟩
  · have hnan' : ∃ x ∈ as.map value, x.isNaN = true := by simpa only [hsame] using hnan
    exact absurd hnan' (h.not_exists_isNaN as)
  have hset : {a | a ∈ as} = {a | a ∈ bs} := by
    ext a
    have ha := hsame (value a)
    rwa [List.mem_map_of_injective h.injective, List.mem_map_of_injective h.injective] at ha
  obtain ⟨g, hg, hgvalue⟩ := h.exists_isLUB as
  obtain ⟨g', hg', hgvalue'⟩ := h.exists_isLUB bs
  rw [hset] at hg
  rw [hgvalue, hgvalue', hg.unique hg']

/-- The best of two lists behind one another is the better of their best. -/
theorem extremum_append (h : Picks value prefer) (xs ys : List Float) :
    extremum prefer (value ⊥) (xs ++ ys) =
      extremum prefer (value ⊥)
        [extremum prefer (value ⊥) xs, extremum prefer (value ⊥) ys] := by
  have hnan : nan.isNaN = true := by decide +kernel
  rcases h.exists_isNaN_or_map xs with ⟨x, hx, hxnan⟩ | ⟨as, rfl⟩
  · rw [extremum_of_isNaN prefer _ ⟨x, List.mem_append_left _ hx, hxnan⟩,
      extremum_of_isNaN prefer _ ⟨x, hx, hxnan⟩]
    exact (extremum_of_isNaN prefer _ ⟨nan, by simp, hnan⟩).symm
  rcases h.exists_isNaN_or_map ys with ⟨y, hy, hynan⟩ | ⟨bs, rfl⟩
  · rw [extremum_of_isNaN prefer _ ⟨y, List.mem_append_right _ hy, hynan⟩,
      extremum_of_isNaN prefer _ ⟨y, hy, hynan⟩]
    exact (extremum_of_isNaN prefer _ ⟨nan, by simp, hnan⟩).symm
  obtain ⟨g, hg, hgvalue⟩ := h.exists_isLUB as
  obtain ⟨g', hg', hgvalue'⟩ := h.exists_isLUB bs
  obtain ⟨u, hu, huvalue⟩ := h.exists_isLUB (as ++ bs)
  obtain ⟨v, hv, hvvalue⟩ := h.exists_isLUB [g, g']
  have hboth : {a | a ∈ as ++ bs} = {a | a ∈ as} ∪ {a | a ∈ bs} := by
    ext a
    exact List.mem_append
  have hpair : {a | a ∈ [g, g']} = {g, g'} := by
    ext a
    simp
  rw [hboth] at hu
  rw [hpair] at hv
  have huv : u = v := (hu.unique (hg.union hg')).trans (isLUB_pair.unique hv)
  rw [hgvalue, hgvalue', ← List.map_append, huvalue, huv, ← hvvalue]
  rfl

end orderBot
end Picks

namespace Number
variable {a b : Number}

theorem value_injective : Function.Injective value := by
  rintro ⟨x, hx⟩ ⟨y, hy⟩ h
  cases h
  rfl

theorem beq_zero_iff_place (a : Number) : (a.value == 0) = true ↔ place a.value = 0 := by
  have hzero : place 0 = 0 := by decide +kernel
  rw [beq_iff_place a.isNaN (by decide +kernel), hzero]

theorem isAbove_iff : isAbove a.value b.value = true ↔
    place b.value < place a.value ∨
      place a.value = 0 ∧ place b.value = 0 ∧ isNegative b.value = true := by
  rw [isAbove, Bool.or_eq_true, Bool.and_eq_true, Bool.and_eq_true, decide_eq_true_iff, gt_iff_lt,
    lt_iff_place b.isNaN a.isNaN, beq_zero_iff_place, beq_zero_iff_place, and_assoc]

/-- The comparison may hold of two negative zeros, which are the same number. -/
theorem le_of_isAbove (h : isAbove a.value b.value = true) : b ≤ a := by
  rw [isAbove_iff] at h
  rw [le_iff_rank]
  unfold rank place at *
  cases ha : isNegative a.value <;> cases hb : isNegative b.value <;> simp [ha, hb] at h ⊢ <;> omega

theorem le_of_not_isAbove (h : isAbove a.value b.value = false) : a ≤ b := by
  rw [Bool.eq_false_iff, Ne, isAbove_iff] at h
  rw [le_iff_rank]
  unfold rank place at *
  cases ha : isNegative a.value <;> cases hb : isNegative b.value <;> simp [ha, hb] at h ⊢ <;> omega

end Number

theorem picks_isAbove : Picks Number.value isAbove where
  isNaN := Number.isNaN
  injective := Number.value_injective
  exists_eq x h := ⟨⟨x, h⟩, rfl⟩
  le_of_prefer := Number.le_of_isAbove
  le_of_not_prefer := Number.le_of_not_isAbove

theorem isBelow_eq_isAbove (x y : Float) : isBelow x y = isAbove y x := by
  rw [isBelow, isAbove, Bool.and_comm (x == 0)]

/-- The smaller number is the greater one in the opposite order. -/
theorem picks_isBelow : Picks (fun a : Numberᵒᵈ => (OrderDual.ofDual a).value) isBelow where
  isNaN a := (OrderDual.ofDual a).isNaN
  injective := Number.value_injective
  exists_eq x h := ⟨OrderDual.toDual ⟨x, h⟩, rfl⟩
  le_of_prefer h := Number.le_of_isAbove (isBelow_eq_isAbove _ _ ▸ h)
  le_of_not_prefer h := Number.le_of_not_isAbove (isBelow_eq_isAbove _ _ ▸ h)

end Binary64

namespace Math.Function
open Binary64

/-- With a NaN among the arguments the greatest and the least are NaN; of no arguments they are the
infinities at the far ends; of numbers they are the greatest and the least number in the order that
puts `-0` below `0`. They depend only on which arguments there are, and those of two lists behind one
another are those of the two results. -/
theorem apply_max_min (xs ys : List Float) :
    ((∃ x ∈ xs, x.isNaN = true) → apply .max xs = nan ∧ apply .min xs = nan) ∧
    (apply .max [] = -infinity ∧ apply .min [] = infinity) ∧
    (∀ as : List Number, as ≠ [] →
      (∃ g, IsGreatest {a | a ∈ as} g ∧ apply .max (as.map (·.value)) = g.value) ∧
        ∃ l, IsLeast {a | a ∈ as} l ∧ apply .min (as.map (·.value)) = l.value) ∧
    ((∀ x, x ∈ xs ↔ x ∈ ys) → apply .max xs = apply .max ys ∧ apply .min xs = apply .min ys) ∧
    apply .max (xs ++ ys) = apply .max [apply .max xs, apply .max ys] ∧
      apply .min (xs ++ ys) = apply .min [apply .min xs, apply .min ys] := by
  refine ⟨fun hnan => ⟨extremum_of_isNaN _ _ hnan, extremum_of_isNaN _ _ hnan⟩, ⟨rfl, rfl⟩,
    fun as has => ⟨?_, ?_⟩, fun hsame => ⟨?_, ?_⟩, ?_, ?_⟩
  · exact picks_isAbove.exists_greatest has
  · obtain ⟨l, hl, hvalue⟩ := picks_isBelow.exists_greatest has
    exact ⟨OrderDual.ofDual l, hl.dual, hvalue⟩
  · exact picks_isAbove.extremum_congr hsame
  · exact picks_isBelow.extremum_congr hsame
  · exact picks_isAbove.extremum_append xs ys
  · exact picks_isBelow.extremum_append xs ys

/-- Two zeros with a number between them, in two orders, and a NaN behind an infinity. -/
theorem apply_max_min_zeros :
    let a : Number := ⟨-0.0, by decide +kernel⟩
    let b : Number := ⟨0, by decide +kernel⟩
    (∃ g, IsGreatest {c | c ∈ [b, a]} g ∧ apply .max [0, -0.0] = g.value) ∧
      apply .max [0, -0.0] = apply .max [-0.0, 0, -0.0] ∧
      apply .min [0, -0.0] = apply .min [-0.0, 0, -0.0] ∧
      apply .max [infinity, nan] = nan := by
  intro a b
  have hsame : ∀ x, x ∈ [(0 : Float), -0.0] ↔ x ∈ [(-0.0 : Float), 0, -0.0] := by
    intro x
    simp only [List.mem_cons, List.not_mem_nil, or_false]
    tauto
  obtain ⟨-, -, hgreatest, hcongr, -⟩ := apply_max_min [0, -0.0] [-0.0, 0, -0.0]
  refine ⟨(hgreatest [b, a] nofun).1, (hcongr hsame).1, (hcongr hsame).2, ?_⟩
  exact ((apply_max_min [infinity, nan] []).1 ⟨nan, by simp, by decide +kernel⟩).1

end Math.Function
end Reckon
