/-! Copies of one state, each of them worked on apart from the others. What the operations keep holds
of all copies at any time. -/
namespace Reckon.Copies

inductive Move (Op : Type) where
  /-- An operation on the copy at a place, if there is one. -/
  | act (place : Nat) (op : Op)
  /-- One more copy of the state at a place, behind all others. -/
  | copy (place : Nat)

variable {State Op : Type} (apply : Op → State → State)

def perform (states : List State) : Move Op → List State
  | .act place op => states.modify place (apply op)
  | .copy place => states ++ states[place]?.toList

/-- All copies behind moves that begin with a single state. -/
def after (start : State) (moves : List (Move Op)) : List State :=
  moves.foldl (perform apply) [start]

variable {apply} {P : State → Prop}

theorem forall_mem_perform (happly : ∀ op s, P s → P (apply op s)) {states : List State}
    (h : ∀ s ∈ states, P s) (move : Move Op) : ∀ s ∈ perform apply states move, P s := by
  intro s hs
  cases move with
  | act place op =>
    obtain ⟨i, hi, rfl⟩ := List.mem_iff_getElem.mp hs
    rw [perform, List.length_modify] at hi
    simp only [perform, List.getElem_modify]
    split
    · exact happly op _ (h _ (List.getElem_mem hi))
    · exact h _ (List.getElem_mem hi)
  | copy place =>
    obtain hs | hs := List.mem_append.mp hs
    · exact h s hs
    · exact h s (List.mem_of_getElem? (Option.mem_toList.mp hs))

theorem forall_mem_after (happly : ∀ op s, P s → P (apply op s)) {start : State} (hstart : P start)
    (moves : List (Move Op)) : ∀ s ∈ after apply start moves, P s := by
  have hrun (states : List State) (h : ∀ s ∈ states, P s) :
      ∀ s ∈ moves.foldl (perform apply) states, P s := by
    induction moves generalizing states with
    | nil => exact h
    | cons move moves ih => exact ih _ (forall_mem_perform happly h move)
  apply hrun
  simpa using hstart

end Reckon.Copies
