import Reckon.Proofs.Copies
import Reckon.Token.Cursor

/-! A cursor as a view of the tokens that are left. Whatever was taken and copied before, all that a
cursor tells agrees with this view, but for a count of places ahead that leaves the words: it comes
round to a token in front of the cursor. -/
namespace Reckon.Cursor

inductive Operation where
  | advance
  | eat (kind : TokenKind)

def Operation.apply : Operation → Cursor → Cursor
  | .advance, c => c.advance.2
  | .eat kind, c => (c.eat kind).2

def step (c : Cursor) : Cursor := { c with position := c.position + 1 }

theorem remaining_step (c : Cursor) : c.step.remaining = c.remaining.tail := by
  rw [remaining, remaining, List.tail_drop]
  rfl

theorem getElem?_remaining (c : Cursor) (n : Nat) :
    c.remaining[n]? = c.tokens[c.position + n]? := List.getElem?_drop

theorem atEnd_iff (c : Cursor) : c.atEnd = true ↔ c.remaining = [] := by
  rw [atEnd, decide_eq_true_eq, remaining, List.drop_eq_nil_iff]

theorem check_eq (c : Cursor) (kind : TokenKind) :
    c.check kind = c.remaining.head?.any (·.kind.sameAs kind) := by
  rw [remaining_head?, check]
  cases c.peek? <;> rfl

theorem advance_of_cons {c : Cursor} {t : Token} {ts : List Token} (h : c.remaining = t :: ts) :
    c.advance = (some t, c.step) := by
  have hpeek : c.peek? = some t := by rw [← remaining_head?, h]; rfl
  rw [advance, hpeek]
  rfl

theorem advance_of_nil {c : Cursor} (h : c.remaining = []) : c.advance = (none, c) := by
  have hpeek : c.peek? = none := by rw [← remaining_head?, h]; rfl
  rw [advance, hpeek]

theorem eat_eq (c : Cursor) (kind : TokenKind) :
    c.eat kind = (c.check kind, if c.check kind then c.step else c) := by
  unfold eat
  cases c.check kind <;> rfl

theorem exists_cons_of_check {c : Cursor} {kind : TokenKind} (h : c.check kind = true) :
    ∃ t ts, c.remaining = t :: ts := by
  rw [check_eq] at h
  cases hc : c.remaining with
  | nil =>
    rw [hc] at h
    cases h
  | cons t ts => exact ⟨t, ts, rfl⟩

/-- The cursor looks at the tokens or stands at their end. -/
structure Within (tokens : List Token) (c : Cursor) : Prop where
  tokens_eq : c.tokens = tokens
  position_le : c.position ≤ tokens.length

namespace Within
variable {tokens : List Token} {c : Cursor}

theorem start (tokens : List Token) : Within tokens (start tokens) := ⟨rfl, Nat.zero_le _⟩

theorem remaining_eq (h : Within tokens c) : c.remaining = tokens.drop c.position := by
  rw [remaining, h.tokens_eq]

theorem step (h : Within tokens c) (hne : c.remaining ≠ []) : Within tokens c.step := by
  have hlt : c.position < tokens.length := by
    rw [h.remaining_eq, Ne, List.drop_eq_nil_iff] at hne
    omega
  exact ⟨h.tokens_eq, hlt⟩

theorem apply (op : Operation) (h : Within tokens c) : Within tokens (op.apply c) := by
  cases hc : c.remaining with
  | nil =>
    cases op with
    | advance => rwa [Operation.apply, advance_of_nil hc]
    | eat kind => rwa [Operation.apply, eat_eq, check_eq, hc]
  | cons t ts =>
    have hstep := h.step (by simp [hc])
    cases op with
    | advance => rwa [Operation.apply, advance_of_cons hc]
    | eat kind =>
      rw [Operation.apply, eat_eq]
      dsimp only
      split
      · exact hstep
      · exact h

theorem of_mem_after {moves : List (Copies.Move Operation)}
    (hc : c ∈ Copies.after Operation.apply (Cursor.start tokens) moves) : Within tokens c :=
  Copies.forall_mem_after (fun op _ => apply op) (start tokens) moves c hc

variable (h : Within tokens c) (hlength : tokens.length < UInt64.size)
include h hlength

theorem toNat_position : (UInt64.ofNat c.position).toNat = c.position :=
  UInt64.toNat_ofNat_of_lt' (Nat.lt_of_le_of_lt h.position_le hlength)

theorem lookAhead?_of_lt {n : UInt64} (hn : c.position + n.toNat < UInt64.size) :
    c.lookAhead? n = c.remaining[n.toNat]? := by
  rw [getElem?_remaining, lookAhead?, UInt64.toNat_add, h.toNat_position hlength,
    Nat.mod_eq_of_lt hn]

/-- Past the largest word the count comes round to what is in front of the cursor. -/
theorem lookAhead?_of_le {n : UInt64} (hn : UInt64.size ≤ c.position + n.toNat) :
    c.lookAhead? n = (tokens.take c.position)[c.position + n.toNat - UInt64.size]? := by
  have hposition := h.position_le
  have hword := n.toNat_lt_size
  have hsum : (c.position + n.toNat) % 2 ^ 64 = c.position + n.toNat - UInt64.size := by
    rw [Nat.mod_eq_sub_mod hn, Nat.mod_eq_of_lt (by omega)]
  rw [lookAhead?, UInt64.toNat_add, h.toNat_position hlength, hsum, h.tokens_eq,
    List.getElem?_take_of_lt (by omega)]

end Within

/-- Whatever was taken and copied before, a cursor stands within the tokens and tells what the
remaining ones tell. Only what is far ahead is not told so: where the place is no word, the token is
one in front of the cursor. -/
theorem tells_remaining (tokens : List Token) (hlength : tokens.length < UInt64.size)
    (moves : List (Copies.Move Operation)) (c : Cursor)
    (hc : c ∈ Copies.after Operation.apply (start tokens) moves) :
    (c.position ≤ tokens.length ∧ c.remaining = tokens.drop c.position) ∧
    (c.peek? = c.remaining.head? ∧ c.peekKind? = c.remaining.head?.map (·.kind)) ∧
    (c.atEnd = true ↔ c.remaining = []) ∧
    (∀ kind, c.check kind = c.remaining.head?.any (·.kind.sameAs kind)) ∧
    (∀ n : UInt64,
      let seen := if c.position + n.toNat < UInt64.size then c.remaining[n.toNat]?
        else (tokens.take c.position)[c.position + n.toNat - UInt64.size]?
      c.lookAhead? n = seen ∧ c.lookAheadKind? n = seen.map (·.kind)) ∧
    (c.advance.1 = c.remaining.head? ∧ c.advance.2.remaining = c.remaining.tail ∧
      (c.remaining = [] → c.advance.2 = c)) ∧
    ∀ kind, (c.eat kind).1 = c.check kind ∧
      (c.check kind = true → ∃ t, c.remaining = t :: (c.eat kind).2.remaining) ∧
      (c.check kind = false → (c.eat kind).2 = c) := by
  have h := Within.of_mem_after hc
  have hahead (n : UInt64) : c.lookAhead? n =
      if c.position + n.toNat < UInt64.size then c.remaining[n.toNat]?
      else (tokens.take c.position)[c.position + n.toNat - UInt64.size]? := by
    split
    · next hn => exact h.lookAhead?_of_lt hlength hn
    · next hn => exact h.lookAhead?_of_le hlength (Nat.le_of_not_lt hn)
  refine ⟨⟨h.position_le, h.remaining_eq⟩, ⟨c.remaining_head?.symm, ?_⟩, c.atEnd_iff, c.check_eq,
    fun n => ⟨hahead n, by rw [lookAheadKind?, hahead]⟩, ?_, fun kind => ?_⟩
  · rw [remaining_head?, peekKind?]
  · cases hremaining : c.remaining with
    | nil =>
      rw [advance_of_nil hremaining]
      exact ⟨rfl, hremaining, fun _ => rfl⟩
    | cons t ts =>
      rw [advance_of_cons hremaining]
      refine ⟨rfl, ?_, nofun⟩
      rw [remaining_step, hremaining]
  · rw [eat_eq]
    refine ⟨rfl, fun hcheck => ?_, fun hcheck => ?_⟩
    · obtain ⟨t, ts, hremaining⟩ := exists_cons_of_check hcheck
      refine ⟨t, ?_⟩
      rw [if_pos hcheck, remaining_step, hremaining]
      rfl
    · rw [hcheck]
      rfl

section
open Copies

/-- The tokens of `x y`. -/
def twoNames : List Token :=
  [⟨.identifier "x", "x", ⟨0, 1⟩⟩, ⟨.identifier "y", "y", ⟨2, 3⟩⟩]

/-- The second name is left to a copy that has eaten the first one. -/
theorem tells_remaining_copy :
    let c : Cursor := ⟨twoNames, 1⟩
    let moves : List (Move Operation) := [.copy 0, .act 1 (.eat (.identifier "x"))]
    twoNames.length < UInt64.size ∧ c ∈ after Operation.apply (start twoNames) moves ∧
      c.remaining = twoNames.drop 1 ∧ c.peekKind? = some (.identifier "y") ∧
      ∃ t, c.remaining = t :: (c.eat (.identifier "y")).2.remaining := by
  intro c moves
  have hlength : twoNames.length < UInt64.size := by decide
  have hc : c ∈ after Operation.apply (start twoNames) moves := by
    apply List.mem_of_getElem? (i := 1)
    rfl
  obtain ⟨⟨-, hremaining⟩, ⟨-, hkind⟩, -, -, -, -, heat⟩ :=
    tells_remaining twoNames hlength moves c hc
  exact ⟨hlength, hc, hremaining, hkind, (heat _).2.1 (by decide)⟩

/-- Behind the first of two tokens there is no place as far ahead as the largest word, but the first
token is seen there, and its kind. -/
theorem lookAhead?_largest :
    let c : Cursor := (start twoNames).advance.2
    let n : UInt64 := 18446744073709551615
    c ∈ after Operation.apply (start twoNames) [.act 0 .advance] ∧ c.remaining[n.toNat]? = none ∧
      c.lookAhead? n = twoNames.head? ∧ twoNames.head? ≠ none ∧
      c.lookAheadKind? n = some (.identifier "x") :=
  ⟨List.mem_singleton_self _, by decide, by decide, by decide, by decide⟩

end

end Reckon.Cursor
