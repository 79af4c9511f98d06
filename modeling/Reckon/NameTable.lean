/-! Values filed under names, as a list in strictly ascending order of the names. -/
namespace Reckon.NameTable

variable {α : Type}

/-- Files a value under a name, in place of the one before. -/
def insert (name : String) (value : α) : List (String × α) → List (String × α)
  | [] => [(name, value)]
  | (n, v) :: rest =>
    if name < n then (name, value) :: (n, v) :: rest
    else if name = n then (name, value) :: rest
    else (n, v) :: insert name value rest

def find? (name : String) : List (String × α) → Option α
  | [] => none
  | (n, v) :: rest => if n = name then some v else find? name rest

/-- The table of a list of members, of which the last one under a name counts. -/
def ofMembers (members : List (String × α)) : List (String × α) :=
  members.foldl (fun table m => insert m.1 m.2 table) []

theorem find?_insert (name : String) (value : α) (table : List (String × α)) (other : String) :
    find? other (insert name value table) =
      if name = other then some value else find? other table := by
  induction table with
  | nil => simp [insert, find?]
  | cons m rest ih =>
    obtain ⟨n, v⟩ := m
    by_cases hl : name < n
    · simp [insert, find?, hl]
    · by_cases he : name = n
      · subst he
        simp only [insert, hl, if_false, if_true, find?]
        split <;> rfl
      · simp only [insert, hl, he, if_false, find?, ih]
        by_cases ho : n = other
        · subst ho; simp [he]
        · simp [ho]

theorem mem_names_insert {name other : String} {value : α} {table : List (String × α)}
    (h : other ∈ (insert name value table).map (·.1)) :
    other = name ∨ other ∈ table.map (·.1) := by
  induction table with
  | nil => simpa [insert] using h
  | cons m rest ih =>
    obtain ⟨n, v⟩ := m
    simp only [insert] at h
    split at h
    · simpa using h
    · split at h
      · next he => subst he; simpa using h
      · simp only [List.map_cons, List.mem_cons] at h ⊢
        rcases h with h | h
        · exact Or.inr (Or.inl h)
        · rcases ih h with h | h
          · exact Or.inl h
          · exact Or.inr (Or.inr h)

/-- The names stay in strictly ascending order. -/
theorem pairwise_insert (name : String) (value : α) {table : List (String × α)}
    (h : (table.map (·.1)).Pairwise (· < ·)) :
    ((insert name value table).map (·.1)).Pairwise (· < ·) := by
  induction table with
  | nil => simp [insert]
  | cons m rest ih =>
    obtain ⟨n, v⟩ := m
    obtain ⟨hn, hr⟩ := List.pairwise_cons.mp h
    simp only [insert]
    split
    · next hl =>
      refine List.pairwise_cons.mpr ⟨fun a ha => ?_, h⟩
      rcases List.mem_cons.mp ha with rfl | ha
      · exact hl
      · exact String.lt_trans hl (hn a ha)
    · next hl =>
      split
      · next he => subst he; exact h
      · next he =>
        refine List.pairwise_cons.mpr ⟨fun a ha => ?_, ih hr⟩
        rcases mem_names_insert ha with rfl | ha
        · exact Std.lt_of_le_of_ne (String.not_lt.mp hl) (Ne.symm he)
        · exact hn a ha

end Reckon.NameTable
