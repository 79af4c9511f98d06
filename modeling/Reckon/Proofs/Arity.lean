import Reckon.Math.Table
import Reckon.Proofs.Extremum
import Reckon.Proofs.Hypotenuse

/-! How many arguments a function reads. A function of a fixed number of arguments depends on these
and on no others; where any number may be given, each of them can make a difference. The published
table gives every function the arity that it has. -/
namespace Reckon
open Binary64 (infinity nan)

namespace Binary64

private theorem extremum_replicate {prefer : Float → Float → Bool} {best x : Float}
    (hx : x.isNaN = false) (h : prefer x best = true) (n : Nat) :
    extremum prefer best (List.replicate (n + 1) x) = x := by
  have hnan : ¬ x.isNaN = true := Bool.eq_false_iff.mp hx
  rw [List.replicate_succ, extremum, if_neg hnan, if_pos h]
  induction n with
  | zero => rfl
  | succ n ih => rw [List.replicate_succ, extremum, if_neg hnan, ite_self, ih]

end Binary64

namespace Elementary

private theorem hypot_zeros (n : Nat) : hypot (List.replicate n 0) = 0 := by
  have hfinite : ∀ x ∈ List.replicate n (0 : Float), x.isInf = false := by
    intro x hx
    rw [List.eq_of_mem_replicate hx]
    decide +kernel
  have hstep : hypot2 0 0 = 0 := by decide +kernel
  have hfold (n : Nat) : (List.replicate n 0).foldl hypot2 0 = 0 := by
    induction n with
    | zero => rfl
    | succ n ih => rw [List.replicate_succ, List.foldl_cons, hstep, ih]
  rw [hypot_eq_foldl hfinite, hfold]

section infinite
variable {xs : List Float} {i : Nat}

private theorem isInf_eq_false_of_mem (h : hypot xs ≠ infinity) : ∀ x ∈ xs, x.isInf = false := by
  intro x hx
  by_contra hinf
  exact h (hypot_of_isInf ⟨x, hx, Bool.of_not_eq_false hinf⟩)

/-- An infinite length of the first components would have stayed infinite. -/
theorem isInf_hypot_take (h : hypot xs ≠ infinity) (hi : i < xs.length) :
    ¬ (hypot (xs.take i)).isInf = true := by
  have hsplit : xs.take i ++ xs[i] :: xs.drop (i + 1) = xs := by
    rw [← List.drop_eq_getElem_cons hi, List.take_append_drop]
  intro hinf
  have hwhole := hypot_append_of_isInf (hsplit.symm ▸ isInf_eq_false_of_mem h) hinf
  rw [hsplit] at hwhole
  exact h hwhole

/-- Unless the length is infinite, a NaN in the place of any component makes it NaN. -/
theorem hypot_set_nan (h : hypot xs ≠ infinity) (hi : i < xs.length) :
    hypot (xs.set i nan) = nan := by
  have hset : xs.set i nan = xs.take i ++ nan :: xs.drop (i + 1) := by
    rw [List.set_eq_take_append_cons_drop, if_pos hi]
  have hfinite : ∀ x ∈ xs.set i nan, x.isInf = false := by
    intro x hx
    rcases List.mem_or_eq_of_mem_set hx with hx | rfl
    · exact isInf_eq_false_of_mem h x hx
    · decide +kernel
  rw [hset] at hfinite ⊢
  rw [hypot_of_isNaN hfinite (by decide +kernel), if_neg (isInf_hypot_take h hi)]

end infinite

end Elementary

namespace Json

def member? (name : String) : Json → Option Json
  | .object members => NameTable.find? name members
  | _ => none

def elements : Json → List Json
  | .array vs => vs
  | _ => []

end Json

namespace Math

/-- A row of the table with that name in it. -/
def isNamed (name : String) (row : Json) : Bool :=
  (row.member? "name").any (·.same (.string name))

/-- What the table gives as the arity of the function of that name. -/
def listedArity? (name : String) : Option Json := do
  let functions ← table.member? "functions"
  let row ← functions.elements.find? (isNamed name)
  row.member? "arity"

namespace Function
variable {f : Function} {n i : Nat} {xs ys : List Float}

/-- There are arguments that differ in that place only and have different results. -/
def DependsOn (f : Function) (i : Nat) : Prop :=
  ∃ xs ys : List Float, xs.length = ys.length ∧ (∀ j, j ≠ i → xs[j]? = ys[j]?) ∧
    apply f xs ≠ apply f ys

theorem dependsOn_of_set {x : Float} (h : apply f (xs.set i x) ≠ apply f xs) : f.DependsOn i :=
  ⟨xs.set i x, xs, List.length_set .., fun _ hj => List.getElem?_set_ne hj.symm, h⟩

section fixed

private theorem argument_eq (args : List Float) (i : Nat) : argument args i = args[i]?.getD nan :=
  List.getD_eq_getElem?_getD ..

/-- A missing argument is read like the NaN that is filled in for it. -/
theorem argument_take_rightpad (args : List Float) (hi : i < n) :
    argument ((args.rightpad n nan).take n) i = argument args i := by
  rw [argument_eq, argument_eq, List.getElem?_take_of_lt hi, List.rightpad]
  by_cases hlen : i < args.length
  · rw [List.getElem?_append_left hlen]
  · have hfill : i - args.length < n - args.length := by omega
    rw [List.getElem?_append_right (by omega), List.getElem?_replicate, if_pos hfill,
      List.getElem?_eq_none (by omega)]
    rfl

theorem one_or_two (h : f.arity = .fixed n) : n = 1 ∨ n = 2 := by
  cases f <;> cases h <;> decide

/-- Only the arguments in front of place `n` are read. -/
theorem apply_congr (h : f.arity = .fixed n) (hsame : ∀ i < n, argument xs i = argument ys i) :
    apply f xs = apply f ys := by
  have hx : argument xs 0 = argument ys 0 := by
    apply hsame
    rcases one_or_two h with rfl | rfl <;> decide
  cases f with
  | atan2 | imul | pow =>
    cases h
    have hy : argument xs 1 = argument ys 1 := hsame 1 (by decide)
    simp only [apply, hx, hy]
  | hypot | max | min => cases h
  | _ => simp only [apply, hx]

/-- Each argument that counts makes a difference when all of them are one. -/
theorem apply_ones_set_nan (h : f.arity = .fixed n) (hi : i < n) :
    apply f ([1, 1].set i nan) ≠ apply f [1, 1] := by
  have hall : ∀ n ∈ [1, 2], ∀ f ∈ all, f.arity = .fixed n →
      ∀ i < n, apply f ([1, 1].set i nan) ≠ apply f [1, 1] := by
    decide +kernel
  have hn : n ∈ [1, 2] := by simpa using one_or_two h
  exact hall n hn f (mem_all f) h i hi

theorem dependsOn_iff_lt (h : f.arity = .fixed n) : f.DependsOn i ↔ i < n := by
  constructor
  · rintro ⟨xs, ys, -, hsame, hne⟩
    by_contra hi
    refine hne (apply_congr h fun j hj => ?_)
    rw [argument_eq, argument_eq, hsame j (by omega)]
  · intro hi
    exact dependsOn_of_set (apply_ones_set_nan h hi)

end fixed

section variadic

/-- Where the result is finite, a NaN in the place of any argument makes it NaN. An infinite length
may have come from two numbers, so that a third makes no difference to it. -/
theorem apply_set_nan (h : f.arity = .variadic) (hfinite : (apply f xs).isFinite = true)
    (hi : i < xs.length) : apply f (xs.set i nan) = nan := by
  have hmem : ∃ x ∈ xs.set i nan, x.isNaN = true := ⟨nan, List.mem_set hi nan, by decide +kernel⟩
  have hinf : apply f xs ≠ infinity := by
    intro hinf
    rw [hinf] at hfinite
    exact absurd hfinite (by decide +kernel)
  cases f with
  | hypot => exact Elementary.hypot_set_nan hinf hi
  | max | min => exact Binary64.extremum_of_isNaN _ _ hmem
  | _ => cases h

theorem apply_zeros (h : f.arity = .variadic) (n : Nat) :
    apply f (List.replicate (n + 1) 0) = 0 := by
  have hzero : (0 : Float).isNaN = false := by decide +kernel
  cases f with
  | hypot => exact Elementary.hypot_zeros (n + 1)
  | max | min => exact Binary64.extremum_replicate hzero (by decide +kernel) n
  | _ => cases h

theorem dependsOn_of_variadic (h : f.arity = .variadic) (i : Nat) : f.DependsOn i := by
  have hzeros := apply_zeros h i
  have hfinite : (apply f (List.replicate (i + 1) 0)).isFinite = true := by
    rw [hzeros]
    decide +kernel
  have hlen : i < (List.replicate (i + 1) (0 : Float)).length := by
    rw [List.length_replicate]
    exact Nat.lt_succ_self i
  have hnan := apply_set_nan h hfinite hlen
  apply dependsOn_of_set
  rw [hnan, hzeros]
  decide +kernel

end variadic

section table

theorem ofName?_name (f : Function) : ofName? f.name = some f := by
  cases f <;> decide

private theorem row_name (f : Function) : f.row.member? "name" = some (.string f.name) := by
  simp [row, Json.member?, NameTable.ofMembers, NameTable.find?_insert]

private theorem row_arity (f : Function) : f.row.member? "arity" = some f.arity.json := by
  simp [row, Json.member?, NameTable.ofMembers, NameTable.find?_insert]

theorem table_functions : table.member? "functions" = some (.array (all.map row)) := by
  simp [table, Json.member?, NameTable.ofMembers, NameTable.find?_insert]

/-- The row of a name is that of the function which has it. -/
theorem find?_row (f : Function) : (all.map row).find? (isNamed f.name) = some f.row := by
  have hnamed : isNamed f.name ∘ row = (·.name == f.name) := by
    funext g
    rw [Function.comp_apply, isNamed, row_name]
    rfl
  rw [List.find?_map, hnamed]
  exact congrArg (Option.map row) (ofName?_name f)

theorem listedArity?_name (f : Function) : listedArity? f.name = some f.arity.json := by
  rw [listedArity?, table_functions]
  change ((all.map row).find? (isNamed f.name)).bind (Json.member? "arity") = _
  rw [find?_row]
  exact row_arity f

end table

/-- A function of a fixed number of arguments has the same value on any list and on its first
arguments up to that number, with NaN for those that are missing; it depends on each of these places
and on no other. A variadic function depends on every place. The table lists the same arity under
the name of the function. -/
theorem apply_arity (f : Function) :
    (∀ n, f.arity = .fixed n →
      (∀ args, apply f args = apply f ((args.rightpad n nan).take n)) ∧
        (∀ i, f.DependsOn i ↔ i < n) ∧ listedArity? f.name = some (.integer n)) ∧
    (f.arity = .variadic →
      (∀ i, f.DependsOn i) ∧ listedArity? f.name = some (.string "variadic")) := by
  have hlisted := listedArity?_name f
  refine ⟨fun n h => ⟨fun args => ?_, fun i => dependsOn_iff_lt h, ?_⟩,
    fun h => ⟨dependsOn_of_variadic h, ?_⟩⟩
  · exact apply_congr h fun i hi => (argument_take_rightpad args hi).symm
  · rw [hlisted, h, Arity.json]
  · rw [hlisted, h, Arity.json]

/-- A power with its exponent missing, one with an argument too many, and the sixth argument of a
maximum. -/
theorem apply_arity_power :
    pow.arity = .fixed 2 ∧ apply .pow [2] = apply .pow [2, nan] ∧
      apply .pow [2, 3, 9] = apply .pow [2, 3] ∧ ¬ pow.DependsOn 2 ∧
      max.arity = .variadic ∧ max.DependsOn 5 := by
  have hpow : pow.arity = .fixed 2 := rfl
  have hmax : max.arity = .variadic := rfl
  obtain ⟨hargs, hplaces, -⟩ := (apply_arity .pow).1 2 hpow
  have hvariadic := (apply_arity .max).2 hmax
  refine ⟨hpow, hargs [2], hargs [2, 3, 9], ?_, hmax, hvariadic.1 5⟩
  rw [hplaces]
  decide

end Function
end Math
end Reckon
