import Mathlib.Logic.Function.Basic
import Reckon.Evaluation
import Reckon.Proofs.Json.Members
import Reckon.Proofs.Occurrence
import Reckon.Proofs.Respacing

/-! Bindings as a finite map. Requests to change them, one after the other, do to the bindings what
they do to a map from names to values; a request that is refused changes nothing. The name of the
namespace is never bound, so that no expression reads it. -/
namespace Reckon

namespace NameTable
variable {α : Type}

/-- The value of the last of the members under a name. -/
def last? (name : String) (ms : List (String × α)) : Option α :=
  (ms.findRev? (·.1 == name)).map (·.2)

theorem last?_cons (name : String) (m : String × α) (ms : List (String × α)) :
    last? name (m :: ms) = (last? name ms).or (if m.1 = name then some m.2 else none) := by
  unfold last?
  rw [List.findRev?]
  cases ms.findRev? (·.1 == name) with
  | some n => rfl
  | none =>
    by_cases h : m.1 = name <;> simp [h]

theorem last?_eq_none_iff {name : String} {ms : List (String × α)} :
    last? name ms = none ↔ name ∉ ms.map (·.1) := by
  induction ms with
  | nil => simp [last?]
  | cons m ms ih =>
    rw [last?_cons, Option.or_eq_none_iff, ih]
    simp [eq_comm, and_comm]

theorem find?_eq_none_iff {name : String} {table : List (String × α)} :
    find? name table = none ↔ name ∉ table.map (·.1) := by
  induction table with
  | nil => simp [find?]
  | cons m rest ih =>
    obtain ⟨n, v⟩ := m
    unfold find?
    by_cases h : n = name
    · simp [h]
    · simp [h, ih, Ne.symm h]

/-- Of members filed one after the other, the last one under a name is found. -/
theorem find?_foldl {β : Type} (file : α → β) (name : String) (ms : List (String × α))
    (table : List (String × β)) :
    find? name (ms.foldl (fun table m => insert m.1 (file m.2) table) table) =
      ((last? name ms).map file).or (find? name table) := by
  induction ms generalizing table with
  | nil => rfl
  | cons m ms ih =>
    rw [List.foldl_cons, ih, last?_cons, find?_insert]
    by_cases h : m.1 = name <;> cases last? name ms <;> simp [h]

theorem find?_ofMembers (name : String) (ms : List (String × α)) :
    find? name (ofMembers ms) = last? name ms := by
  have h := find?_foldl id name ms []
  rw [Option.map_id] at h
  exact h.trans (Option.or_none ..)

/-- A table holds a name once. -/
theorem last?_of_pairwise {name : String} {table : List (String × α)}
    (h : (table.map (·.1)).Pairwise (· < ·)) : last? name table = find? name table := by
  induction table with
  | nil => rfl
  | cons m rest ih =>
    obtain ⟨n, v⟩ := m
    obtain ⟨hlt, hrest⟩ := List.pairwise_cons.mp h
    rw [last?_cons, ih hrest, find?]
    by_cases hname : n = name
    · have hnone : find? name rest = none := by
        apply find?_eq_none_iff.mpr
        intro hmem
        exact String.lt_irrefl name (hname ▸ hlt name hmem)
      rw [hnone, if_pos hname, Option.none_or]
    · rw [if_neg hname, if_neg hname, Option.or_none]

private theorem pairwise_foldl (ms : List (String × α)) {table : List (String × α)}
    (h : (table.map (·.1)).Pairwise (· < ·)) :
    ((ms.foldl (fun table m => insert m.1 m.2 table) table).map (·.1)).Pairwise (· < ·) := by
  induction ms generalizing table with
  | nil => exact h
  | cons m ms ih => exact ih (pairwise_insert _ _ h)

theorem pairwise_ofMembers (ms : List (String × α)) :
    ((ofMembers ms).map (·.1)).Pairwise (· < ·) := pairwise_foldl ms .nil

theorem mem_names_ofMembers {name : String} {ms : List (String × α)} :
    name ∈ (ofMembers ms).map (·.1) ↔ name ∈ ms.map (·.1) := by
  rw [← not_iff_not, ← find?_eq_none_iff, find?_ofMembers, last?_eq_none_iff]

end NameTable

namespace Bindings
variable {b c : Bindings} {name : String} {value : BoundValue}

/-- The names are in ascending order, and the reserved one is not among them. -/
structure WellFormed (b : Bindings) : Prop where
  ascending : b.names.Pairwise (· < ·)
  reserved_not_mem : reserved ∉ b.names

theorem wellFormed_empty : WellFormed empty := ⟨.nil, List.not_mem_nil⟩

theorem get?_eq_none_iff : b.get? name = none ↔ name ∉ b.names := NameTable.find?_eq_none_iff

theorem insert_eq_ok (h : name ≠ reserved) :
    b.insert name value = .ok ⟨NameTable.insert name value b.table⟩ := if_neg h

theorem WellFormed.insert (hb : WellFormed b) (h : b.insert name value = .ok c) : WellFormed c := by
  unfold Bindings.insert at h
  split at h
  · cases h
  · next hname =>
    cases h
    constructor
    · exact NameTable.pairwise_insert name value hb.ascending
    · intro hmem
      rcases NameTable.mem_names_insert hmem with heq | hmem
      · exact hname heq.symm
      · exact hb.reserved_not_mem hmem

theorem run_insertInPlace (b : Bindings) (name : String) (value : BoundValue) :
    (insertInPlace name value).run.run b =
      match b.insert name value with
      | .ok c => (.ok (), c)
      | .error e => (.error e, b) := by
  unfold insertInPlace Bindings.insert
  split <;> rfl

theorem including_eq_insert (b : Bindings) (name : String) (value : BoundValue) :
    b.including name value = b.insert name value := by
  unfold including
  rw [run_insertInPlace]
  cases b.insert name value <;> rfl

section insertAll
variable {ms : List (String × Json)}

theorem insertAll_eq_ok (b : Bindings) (h : reserved ∉ ms.map (·.1)) :
    b.insertAll ms =
      .ok ⟨ms.foldl (fun table m => NameTable.insert m.1 (.json m.2) table) b.table⟩ := by
  induction ms generalizing b with
  | nil => rfl
  | cons m ms ih =>
    obtain ⟨n, v⟩ := m
    rw [List.map_cons, List.mem_cons, not_or] at h
    rw [insertAll, insert_eq_ok (Ne.symm h.1)]
    exact ih _ h.2

theorem insertAll_eq_error (b : Bindings) (h : reserved ∈ ms.map (·.1)) :
    b.insertAll ms = .error (.reservedName reserved) := by
  induction ms generalizing b with
  | nil => cases h
  | cons m ms ih =>
    obtain ⟨n, v⟩ := m
    rw [insertAll]
    by_cases hn : n = reserved
    · rw [Bindings.insert, if_pos hn, hn]
      rfl
    · rw [insert_eq_ok hn]
      rw [List.map_cons, List.mem_cons] at h
      exact ih _ (h.resolve_left (Ne.symm hn))

theorem WellFormed.insertAll (hb : WellFormed b) (h : b.insertAll ms = .ok c) : WellFormed c := by
  induction ms generalizing b with
  | nil =>
    cases h
    exact hb
  | cons m ms ih =>
    obtain ⟨n, v⟩ := m
    obtain ⟨d, hd, h⟩ := exists_of_bind_eq_ok h
    exact ih (hb.insert hd) h

end insertAll

section ofText
variable {text : String} {ms : List (String × Json)}

theorem WellFormed.ofText (h : ofText? text = .ok c) : WellFormed c := by
  unfold ofText? at h
  split at h
  · unfold ofJson? at h
    split at h
    · exact wellFormed_empty.insertAll h
    · cases h
  · cases h

theorem ofText?_of_members (h : Json.members? text = some ms) :
    ofText? text = empty.insertAll (NameTable.ofMembers ms) := by
  unfold ofText?
  rw [Json.ofString_eq_object_iff.mpr ⟨ms, h, rfl⟩]
  rfl

theorem exists_members (h : ofText? text = .ok c) : ∃ ms, Json.members? text = some ms := by
  cases hjson : Json.ofString text with
  | error fault =>
    rw [ofText?, hjson] at h
    cases h
  | ok v =>
    rw [ofText?, hjson] at h
    cases v
    case object table =>
      obtain ⟨ms, hms, -⟩ := Json.ofString_eq_object_iff.mp hjson
      exact ⟨ms, hms⟩
    all_goals cases h

/-- The last member under each name is bound. -/
theorem exists_ofText? (h : Json.members? text = some ms) (hmath : reserved ∉ ms.map (·.1)) :
    ∃ c, ofText? text = .ok c ∧ ∀ name, c.get? name = (NameTable.last? name ms).map .json := by
  refine ⟨_, (ofText?_of_members h).trans (insertAll_eq_ok _ ?_), fun name => ?_⟩
  · rwa [NameTable.mem_names_ofMembers]
  · have hfold := NameTable.find?_foldl BoundValue.json name (NameTable.ofMembers ms) []
    rw [NameTable.last?_of_pairwise (NameTable.pairwise_ofMembers ms), NameTable.find?_ofMembers]
      at hfold
    exact hfold.trans (Option.or_none ..)

theorem ofText?_of_reserved (h : Json.members? text = some ms) (hmath : reserved ∈ ms.map (·.1)) :
    ofText? text = .error (.reservedName reserved) := by
  rw [ofText?_of_members h]
  exact insertAll_eq_error _ (NameTable.mem_names_ofMembers.mpr hmath)

/-- A text is refused if it is no JSON, no object, or has the reserved name among its members. -/
theorem ofText?_eq_error_iff {e : BindingsError} : ofText? text = .error e ↔
    (∃ fault, Json.ofString text = .error fault ∧ e = .json fault) ∨
    (∃ v, Json.ofString text = .ok v ∧ (∀ table, v ≠ .object table) ∧
      e = .notAnObject v.kindName) ∨
    ∃ ms, Json.members? text = some ms ∧ reserved ∈ ms.map (·.1) ∧ e = .reservedName reserved := by
  constructor
  · intro h
    cases hjson : Json.ofString text with
    | error fault =>
      rw [ofText?, hjson] at h
      cases h
      exact .inl ⟨fault, rfl, rfl⟩
    | ok v =>
      by_cases hobject : ∃ table, v = .object table
      · obtain ⟨table, rfl⟩ := hobject
        obtain ⟨ms, hms, -⟩ := Json.ofString_eq_object_iff.mp hjson
        by_cases hmath : reserved ∈ ms.map (·.1)
        · rw [ofText?_of_reserved hms hmath] at h
          cases h
          exact .inr (.inr ⟨ms, hms, hmath, rfl⟩)
        · obtain ⟨c, hc, -⟩ := exists_ofText? hms hmath
          rw [hc] at h
          cases h
      · have hother : ∀ table, v ≠ .object table := fun table hv => hobject ⟨table, hv⟩
        rw [ofText?, hjson] at h
        refine .inr (.inl ⟨v, rfl, hother, ?_⟩)
        cases v
        case object table => exact absurd rfl (hother table)
        all_goals
          cases h
          rfl
  · rintro (⟨fault, hjson, rfl⟩ | ⟨v, hjson, hother, rfl⟩ | ⟨ms, hms, hmath, rfl⟩)
    · rw [ofText?, hjson]
    · rw [ofText?, hjson]
      cases v
      case object table => exact absurd rfl (hother table)
      all_goals rfl
    · exact ofText?_of_reserved hms hmath

end ofText

end Bindings

inductive Request where
  | insert (name : String) (value : BoundValue)
  /-- Insertion into a copy, which takes the place of the bindings. -/
  | including (name : String) (value : BoundValue)
  /-- Bindings that a text writes take the place of the bindings. -/
  | load (text : String)
  | clear

namespace Request
open Bindings (reserved)

/-- The request as it is carried out. An exception leaves the bindings as they are then. -/
def perform : Request → ExceptT BindingsError (StateM Bindings) Unit
  | .insert name value => Bindings.insertInPlace name value
  | .including name value => do
    let copy ← get
    set (← MonadExcept.ofExcept (copy.including name value))
  | .load text => do set (← MonadExcept.ofExcept (Bindings.ofText? text))
  | .clear => set Bindings.empty

/-- The bindings that a request makes of those before it. -/
def outcome (b : Bindings) : Request → Except BindingsError Bindings
  | .insert name value | .including name value => b.insert name value
  | .load text => Bindings.ofText? text
  | .clear => .ok .empty

/-- What the request does to a map from names to values, unless it is refused. -/
def change (m : String → Option BoundValue) : Request → Option (String → Option BoundValue)
  | .insert name value | .including name value =>
    if name = reserved then none else some (Function.update m name (some value))
  | .load text =>
    match Json.members? text with
    | some ms =>
      if reserved ∈ ms.map (·.1) then none
      else some fun name => (NameTable.last? name ms).map .json
    | none => none
  | .clear => some fun _ => none

section perform
variable {b : Bindings}

theorem run_set (r : Except BindingsError Bindings) (b : Bindings) :
    (do set (← MonadExcept.ofExcept r) : ExceptT BindingsError (StateM Bindings) Unit).run.run b =
      match r with
      | .ok c => (.ok (), c)
      | .error e => (.error e, b) := by
  cases r <;> rfl

/-- A request that is refused leaves the bindings as they were. -/
theorem run_perform (r : Request) (b : Bindings) : r.perform.run.run b =
    match r.outcome b with
    | .ok c => (.ok (), c)
    | .error e => (.error e, b) := by
  cases r with
  | insert name value => exact Bindings.run_insertInPlace b name value
  | including name value =>
    rw [outcome, ← Bindings.including_eq_insert]
    exact run_set (b.including name value) b
  | load text => exact run_set (Bindings.ofText? text) b
  | clear => rfl

theorem outcome_insert (b : Bindings) (name : String) (value : BoundValue) :
    (∃ c, b.insert name value = .ok c ∧
      (insert name value).change b.get? = some c.get?) ∨
    ∃ e, b.insert name value = .error e ∧ (insert name value).change b.get? = none := by
  by_cases hname : name = reserved
  · exact .inr ⟨_, if_pos hname, if_pos hname⟩
  · obtain ⟨c, hc⟩ : ∃ c, b.insert name value = .ok c := ⟨_, Bindings.insert_eq_ok hname⟩
    have hmap : Function.update b.get? name (some value) = c.get? := by
      funext other
      rw [Bindings.get?_insert hc, Function.update_apply]
      simp only [@eq_comm _ other]
    refine .inl ⟨c, hc, ?_⟩
    rw [← hmap]
    exact if_neg hname

theorem outcome_load (b : Bindings) (text : String) :
    (∃ c, Bindings.ofText? text = .ok c ∧ (load text).change b.get? = some c.get?) ∨
    ∃ e, Bindings.ofText? text = .error e ∧ (load text).change b.get? = none := by
  cases hms : Json.members? text with
  | none =>
    have hchange : (load text).change b.get? = none := by rw [change, hms]
    cases hc : Bindings.ofText? text with
    | error e => exact .inr ⟨e, rfl, hchange⟩
    | ok c =>
      obtain ⟨ms, hsome⟩ := Bindings.exists_members hc
      rw [hms] at hsome
      cases hsome
  | some ms =>
    by_cases hmath : reserved ∈ ms.map (·.1)
    · refine .inr ⟨_, Bindings.ofText?_of_reserved hms hmath, ?_⟩
      rw [change, hms]
      exact if_pos hmath
    · obtain ⟨c, hc, hget⟩ := Bindings.exists_ofText? hms hmath
      have hmap : c.get? = fun name => (NameTable.last? name ms).map .json := funext hget
      refine .inl ⟨c, hc, ?_⟩
      rw [change, hms, hmap]
      exact if_neg hmath

/-- A request is granted if it changes the map, and then does the same to the bindings. -/
theorem outcome_change (r : Request) (b : Bindings) :
    (∃ c, r.outcome b = .ok c ∧ r.change b.get? = some c.get?) ∨
      ∃ e, r.outcome b = .error e ∧ r.change b.get? = none := by
  cases r with
  | insert name value => exact outcome_insert b name value
  | including name value => exact outcome_insert b name value
  | load text => exact outcome_load b text
  | clear => exact .inl ⟨_, rfl, rfl⟩

theorem wellFormed_of_outcome {r : Request} {c : Bindings} (hb : b.WellFormed)
    (h : r.outcome b = .ok c) : c.WellFormed := by
  cases r with
  | insert name value => exact hb.insert h
  | including name value => exact hb.insert h
  | load text => exact Bindings.WellFormed.ofText h
  | clear =>
    cases h
    exact Bindings.wellFormed_empty

end perform

/-- The bindings behind requests made one after the other, of which some may be refused. -/
def after (rs : List Request) : Bindings :=
  rs.foldl (fun b r => (r.perform.run.run b).2) Bindings.empty

def mapAfter (rs : List Request) : String → Option BoundValue :=
  rs.foldl (fun m r => (r.change m).getD m) fun _ => none

/-- Requests keep the order of the names and the reserved name free, and do the same to the map. -/
theorem foldl_perform (rs : List Request) {b : Bindings} (hb : b.WellFormed) :
    (rs.foldl (fun b r => (r.perform.run.run b).2) b).WellFormed ∧
      (rs.foldl (fun b r => (r.perform.run.run b).2) b).get? =
        rs.foldl (fun m r => (r.change m).getD m) b.get? := by
  induction rs generalizing b with
  | nil => exact ⟨hb, rfl⟩
  | cons r rs ih =>
    rw [List.foldl_cons, List.foldl_cons, run_perform]
    obtain ⟨c, hc, hchange⟩ | ⟨e, he, hchange⟩ := outcome_change r b
    · rw [hc, hchange]
      exact ih (wellFormed_of_outcome hb hc)
    · rw [he, hchange]
      exact ih hb

end Request

section bareMath
open Token

/-- A name is evaluated wherever it stands, but for a `Math` before a dot. -/
theorem Token.exists_mem_occurrences {t : Token} {name : String} (hk : t.kind = .identifier name)
    {later : List Token} (hlater : (t.isMath && startsWith .dot later) = false) (behindDot : Bool)
    (before : List Token) :
    ∃ use, ⟨t, use⟩ ∈ occurrences behindDot (before ++ t :: later) := by
  induction before generalizing behindDot with
  | nil =>
    rw [List.nil_append, occurrences, hk]
    dsimp only
    rw [hlater]
    cases behindDot
    · exact ⟨_, List.mem_cons_self ..⟩
    · exact ⟨_, List.mem_cons_self ..⟩
  | cons u before ih =>
    rw [List.cons_append, occurrences]
    split
    · obtain ⟨use, hmem⟩ := ih false
      split
      · exact ⟨use, List.mem_cons_of_mem _ hmem⟩
      · split
        · exact ⟨use, hmem⟩
        · exact ⟨use, List.mem_cons_of_mem _ hmem⟩
    · exact ih _

theorem Cut.lexeme_eq {after text : List Char} {offset : Nat} {ts : List Token}
    (h : Cut after offset text ts) {t : Token} (ht : t ∈ ts) {name : String}
    (hk : t.kind = .identifier name) : t.lexeme = name := by
  induction h with
  | gap => cases ht
  | token hgap hcomplete _ ih =>
    rcases List.mem_cons.mp ht with rfl | ht
    · cases hk
      cases hcomplete
      rfl
    · exact ih ht

theorem Expression.exists_failure_of_bare {e : Expression} {b : Bindings}
    (hfree : b.get? "Math" = none) {before later : List Token} {t : Token}
    (htokens : e.tokens = before ++ t :: later) (hk : t.kind = .identifier "Math")
    (hlexeme : t.lexeme = "Math") (hdot : startsWith .dot later = false) :
    ∃ f, e.value b = .error f := by
  have hmember : Math.member? "Math" = none := by decide +kernel
  obtain ⟨use, hmem⟩ := exists_mem_occurrences hk (by rw [hdot, Bool.and_false]) false before
  have hcause : Occurrence.cause? b ⟨t, use⟩ ≠ none := by
    unfold Occurrence.cause?
    dsimp only
    cases use <;> simp only [hlexeme, hfree, hmember] <;> exact Option.some_ne_none _
  have hfails : failureOf (e.value b) ≠ none := by
    rw [e.failureOf_value, htokens, Ne, List.findSome?_eq_none_iff]
    exact fun h => hcause (Occurrence.failure?_eq_none_iff.mp (h _ hmem))
  obtain ⟨f, hf⟩ := Option.ne_none_iff_exists'.mp hfails
  exact ⟨f, failureOf_eq_some_iff.mp hf⟩

theorem lexeme_of_validate {source : String} {limits : Limits} {e : Expression}
    (h : validate source limits = .ok e) {t : Token} (ht : t ∈ e.tokens) {name : String}
    (hk : t.kind = .identifier name) : t.lexeme = name := by
  unfold validate at h
  split at h
  · cases h
  · obtain ⟨ts, hts, h⟩ := exists_of_bind_eq_ok h
    rw [Expression.tokens_of_ofTokens? h] at ht
    exact (tokenizeFrom_eq_ok_iff.mp hts).lexeme_eq ht hk

end bareMath

namespace Request
open Bindings (reserved)

/-- Behind any requests the bindings are the map that the granted ones make, those refused change
nothing, and a text is refused for what it writes only. The names are in ascending order without
`Math`, and an accepted expression in which a `Math` stands before anything but a dot fails. -/
theorem after_eq_map (rs : List Request) :
    (after rs).get? = mapAfter rs ∧
    (∀ r : Request,
      (∃ c, r.perform.run.run (after rs) = (.ok (), c) ∧ r.change (mapAfter rs) = some c.get?) ∨
      ∃ e, r.perform.run.run (after rs) = (.error e, after rs) ∧ r.change (mapAfter rs) = none) ∧
    (∀ text e, Bindings.ofText? text = .error e ↔
      (∃ fault, Json.ofString text = .error fault ∧ e = .json fault) ∨
      (∃ v, Json.ofString text = .ok v ∧ (∀ table, v ≠ .object table) ∧
        e = .notAnObject v.kindName) ∨
      ∃ ms, Json.members? text = some ms ∧ "Math" ∈ ms.map (·.1) ∧ e = .reservedName "Math") ∧
    (after rs).get? "Math" = none ∧
    ((after rs).names.Pairwise (· < ·) ∧ (after rs).names.length = (after rs).size ∧
      ∀ name, name ∈ (after rs).names ↔ ((after rs).get? name).isSome) ∧
    ∀ source limits e before t later, validate source limits = .ok e →
      e.tokens = before ++ t :: later → t.isMath = true → Token.startsWith .dot later = false →
        ∃ f, evaluate source (after rs) limits = .error f := by
  obtain ⟨hwell, hmap⟩ := foldl_perform rs Bindings.wellFormed_empty
  have hget : (after rs).get? = mapAfter rs := hmap
  have hfree : (after rs).get? "Math" = none := Bindings.get?_eq_none_iff.mpr hwell.reserved_not_mem
  refine ⟨hget, fun r => ?_, fun text e => Bindings.ofText?_eq_error_iff, hfree,
    ⟨hwell.ascending, List.length_map .., fun name => ?_⟩, ?_⟩
  · rw [run_perform, ← hget]
    obtain ⟨c, hc, hchange⟩ | ⟨e, he, hchange⟩ := outcome_change r (after rs)
    · rw [hc]
      exact .inl ⟨c, rfl, hchange⟩
    · rw [he]
      exact .inr ⟨e, rfl, hchange⟩
  · rw [Option.isSome_iff_ne_none, Ne, Bindings.get?_eq_none_iff, not_not]
  · intro source limits e before t later hvalidate htokens hmath hdot
    have hk := Token.isMath_iff.mp hmath
    obtain ⟨f, hf⟩ := e.exists_failure_of_bare hfree htokens hk
      (lexeme_of_validate hvalidate (by rw [htokens]; simp) hk) hdot
    rw [evaluate, hvalidate]
    exact ⟨f, hf⟩

private theorem exists_validate_math :
    ∃ e t, validate "Math" = .ok e ∧ e.tokens = [t] ∧ t.isMath = true := by
  let w : Word := .name ⟨'M', ['a', 't', 'h'], rfl, List.all_eq_true.mp rfl⟩
  let t : Token := ⟨.identifier "Math", "Math", ⟨0, 4⟩⟩
  have ht : Lexeme.Complete w.kind ['M', 'a', 't', 'h'] ([] ++ []) := w.complete nofun
  have hcut : Cut [] 0 "Math".toList [t] := .without_gap ht (.gap nofun)
  have htokens : tokenize (Text.normalize "Math".toList) = .ok [t] := by
    rw [hcut.normalize_eq]
    exact tokenizeFrom_of_cut hcut rfl
  have hreads : Recognizer.Reads .expr [t] [] :=
    .expr (.unsigned (.identifier rfl nofun)) (.stop (Token.avoids_nil _))
  obtain ⟨e, he⟩ : ∃ e, Expression.ofTokens? {} [t] = .ok e :=
    Expression.exists_ofTokens?_iff.mpr ⟨rfl, Recognizer.sentence_eq_ok_iff.mpr hreads⟩
  refine ⟨e, t, ?_, Expression.tokens_of_ofTokens? he, Token.isMath_iff.mpr rfl⟩
  rw [validate_of_short (by decide), htokens]
  exact he

/-- The last member of a name counts, what was bound before is gone, and members with a `Math` among
them are refused. A bare `Math` fails behind such requests. -/
theorem after_eq_map_load :
    let rs : List Request := [.insert "x" (.number 1),
      .load "\x7b\"a\": 1, \"b\": 2, \"a\": 3\x7d", .load "\x7b\"c\": 1, \"Math\": 2\x7d"]
    ((after rs).get? "x" = none ∧ (after rs).get? "a" = some (.json (.integer 3)) ∧
      (after rs).get? "b" = some (.json (.integer 2)) ∧ (after rs).get? "c" = none) ∧
    Bindings.ofText? "\x7b\"c\": 1, \"Math\": 2\x7d" = .error (.reservedName "Math") ∧
    ∃ e, validate "Math" = .ok e ∧ ∃ f, evaluate "Math" (after rs) = .error f := by
  intro rs
  have hgranted : Json.members? "\x7b\"a\": 1, \"b\": 2, \"a\": 3\x7d" =
      some [("a", .integer 1), ("b", .integer 2), ("a", .integer 3)] := by
    with_unfolding_all rfl
  have hrefused : Json.members? "\x7b\"c\": 1, \"Math\": 2\x7d" =
      some [("c", .integer 1), ("Math", .integer 2)] := by
    with_unfolding_all rfl
  have hafter : mapAfter rs = fun name => (NameTable.last? name
      [("a", .integer 1), ("b", .integer 2), ("a", .integer 3)]).map .json := by
    simp [rs, mapAfter, change, hgranted, hrefused, reserved]
  obtain ⟨hmap, -, herror, -, -, hfails⟩ := after_eq_map rs
  obtain ⟨e, t, he, htokens, ht⟩ := exists_validate_math
  refine ⟨?_, ?_, e, he, hfails "Math" {} e [] t [] he htokens ht rfl⟩
  · rw [hmap, hafter]
    exact ⟨rfl, rfl, rfl, rfl⟩
  · exact (herror _ _).mpr (.inr (.inr ⟨_, hrefused, by decide, rfl⟩))

end Request

end Reckon
