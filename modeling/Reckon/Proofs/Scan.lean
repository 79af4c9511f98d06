import Reckon.Proofs.Bytewise
import Reckon.Proofs.Copies

/-! What holds of a scan however it was reached: it stands between two characters of its source, its
bytes are looked at one at a time without a stretch that splits a character, every token moves it on,
and it comes to an end. -/
namespace Reckon.Scan
open Text Token

inductive Operation where
  | next
  | restart

def Operation.apply : Operation → Scan → Scan
  | .next, s => s.next.2
  | .restart, s => s.restart

/-- What the step after as many others yields. -/
def item (s : Scan) : Nat → Option (Except Failure Token)
  | 0 => s.next.1
  | k + 1 => item s.next.2 k

def bytewise (s : Scan) : ByteScan := ⟨s.source, s.offset, s.failed⟩

theorem next_of_failed {s : Scan} (h : s.failed = true) : s.next = (none, s) := by
  rw [next, if_pos h]

theorem next_of_nil {s : Scan} (hf : s.failed = false) (h : s.rest.dropWhile isGap = []) :
    s.next = (none, { s with rest := [], offset := s.offset + byteLength s.rest }) := by
  have hrest := List.takeWhile_append_dropWhile (p := isGap) (l := s.rest)
  rw [h, List.append_nil] at hrest
  rw [next, if_neg (by simp [hf]), h, hrest]

theorem next_of_cons {s : Scan} {c : Char} {cs : List Char} (hf : s.failed = false)
    (h : s.rest.dropWhile isGap = c :: cs) :
    let start := s.offset + byteLength (s.rest.takeWhile isGap)
    let result := ofForm start (munch c cs).1
    s.next = (some result,
      ⟨s.source, (munch c cs).2, start + byteLength (munch c cs).1.chars, !result.isOk⟩) := by
  rw [next, if_neg (by simp [hf]), h]

/-- The scan looks at the source from between two characters on. -/
structure Placed (source : List Char) (s : Scan) : Prop where
  source_eq : s.source = source
  exists_before : ∃ before, source = before ++ s.rest ∧ s.offset = byteLength before

namespace Placed
variable {source : List Char} {s : Scan}

theorem start (source : List Char) : Placed source (start source) := ⟨rfl, [], rfl, rfl⟩

theorem next (h : Placed source s) : Placed source s.next.2 := by
  obtain ⟨hsource, before, hbefore, hoffset⟩ := h
  cases hf : s.failed with
  | true =>
    rw [next_of_failed hf]
    exact ⟨hsource, before, hbefore, hoffset⟩
  | false =>
    cases hrest : s.rest.dropWhile isGap with
    | nil =>
      rw [next_of_nil hf hrest]
      exact ⟨hsource, before ++ s.rest, by rw [List.append_nil, hbefore], by simp [hoffset]⟩
    | cons c cs =>
      have htext := List.takeWhile_append_dropWhile (p := isGap) (l := s.rest)
      rw [hrest, ← munch_append c cs] at htext
      rw [next_of_cons hf hrest]
      refine ⟨hsource, before ++ (s.rest.takeWhile isGap ++ (munch c cs).1.chars), ?_, ?_⟩
      · rw [List.append_assoc, List.append_assoc, htext, hbefore]
      · simp [hoffset, Nat.add_assoc]

theorem apply (op : Operation) (h : Placed source s) : Placed source (op.apply s) := by
  cases op with
  | next => exact h.next
  | restart =>
    rw [Operation.apply, restart, h.source_eq]
    exact start source

theorem of_mem_after {moves : List (Copies.Move Operation)}
    (hs : s ∈ Copies.after Operation.apply (Scan.start source) moves) : Placed source s :=
  Copies.forall_mem_after (fun op _ => apply op) (start source) moves s hs

theorem covers (h : Placed source s) : (Span.point s.offset).Covers source [] := by
  obtain ⟨before, hbefore, hoffset⟩ := h.exists_before
  exact ⟨before, s.rest, hbefore, by rw [Span.point, hoffset]; rfl⟩

/-- Byte by byte nothing else is found, and no stretch that is cut out splits a character. -/
theorem bytewise_next (h : Placed source s) :
    s.bytewise.next = some (s.next.1, s.next.2.bytewise) := by
  obtain ⟨hsource, before, hbefore, hoffset⟩ := h
  cases hf : s.failed with
  | true =>
    rw [next_of_failed hf, ByteScan.next, bytewise, if_pos hf]
    rfl
  | false =>
    have hstart : ByteScan.skipWhile s.source isGap s.offset =
        byteLength (before ++ s.rest.takeWhile isGap) := by
      rw [hsource, hbefore, hoffset, ByteScan.skipWhile_append _ fun _ => lt_of_isGap]
    have htext := List.takeWhile_append_dropWhile (p := isGap) (l := s.rest)
    rw [ByteScan.next, bytewise, if_neg (by simp [hf])]
    dsimp only
    rw [hstart]
    cases hrest : s.rest.dropWhile isGap with
    | nil =>
      rw [hrest, List.append_nil] at htext
      rw [next_of_nil hf hrest, htext, ← hbefore, hsource, if_pos (Nat.le_refl _)]
      simp [bytewise, hbefore, hoffset, hf]
    | cons c cs =>
      rw [hrest] at htext
      have hsplit : source = (before ++ s.rest.takeWhile isGap) ++ c :: cs := by
        rw [List.append_assoc, htext, hbefore]
      have hlt : ¬byteLength s.source ≤ byteLength (before ++ s.rest.takeWhile isGap) := by
        have := c.utf8Size_pos
        rw [hsource, hsplit, byteLength_append, byteLength_cons]
        omega
      rw [next_of_cons hf hrest, if_neg hlt, hsource, hsplit, ByteScan.scan_append]
      simp [bytewise, hoffset, Nat.add_assoc]

end Placed

/-- A token covers the lexeme that it is made of. -/
theorem span_of_ofForm {start : Nat} {form : Form} {t : Token} (h : ofForm start form = .ok t) :
    t.span = ⟨start, start + byteLength form.chars⟩ := by
  unfold ofForm at h
  split at h
  · split at h
    · split at h
      · cases h
        rfl
      · cases h
    · cases h
  · cases h
    rfl
  · cases h
    rfl
  · cases h

/-- An item is what the next lexeme makes. -/
theorem exists_cons_of_next {s : Scan} {result : Except Failure Token}
    (h : s.next.1 = some result) :
    ∃ c cs, s.rest.dropWhile isGap = c :: cs ∧
      result = ofForm (s.offset + byteLength (s.rest.takeWhile isGap)) (munch c cs).1 ∧
      s.next.2 = ⟨s.source, (munch c cs).2, s.offset + byteLength (s.rest.takeWhile isGap) +
        byteLength (munch c cs).1.chars, !result.isOk⟩ := by
  cases hf : s.failed with
  | true =>
    rw [next_of_failed hf] at h
    cases h
  | false =>
    cases hrest : s.rest.dropWhile isGap with
    | nil =>
      rw [next_of_nil hf hrest] at h
      cases h
    | cons c cs =>
      rw [next_of_cons hf hrest] at h ⊢
      cases h
      exact ⟨c, cs, rfl, rfl, rfl⟩

/-- Where nothing is left, nothing is left afterwards. -/
theorem next_of_next_eq_none {s : Scan} (h : s.next.1 = none) : s.next.2.next.1 = none := by
  cases hf : s.failed with
  | true =>
    rw [next_of_failed hf]
    exact h
  | false =>
    cases hrest : s.rest.dropWhile isGap with
    | nil =>
      have hend := @next_of_nil { s with rest := [], offset := s.offset + byteLength s.rest } hf rfl
      rw [next_of_nil hf hrest, hend]
    | cons c cs =>
      rw [next_of_cons hf hrest] at h
      cases h

theorem item_eq_none {s : Scan} (h : s.next.1 = none) (k : Nat) : s.item k = none := by
  induction k generalizing s with
  | zero => exact h
  | succ k ih => exact ih (next_of_next_eq_none h)

theorem forward_of_next {s : Scan} {t : Token} (h : s.next.1 = some (.ok t)) :
    s.next.2.offset = t.span.stop ∧ t.span.start < t.span.stop ∧ s.offset ≤ t.span.start := by
  obtain ⟨c, cs, -, hform, hnext⟩ := exists_cons_of_next h
  have hpos := byteLength_pos (chars_munch_ne_nil c cs)
  rw [hnext, span_of_ofForm hform.symm]
  dsimp only
  omega

theorem item_of_next_eq_error {s : Scan} {f : Failure} (h : s.next.1 = some (.error f)) (k : Nat) :
    s.next.2.item k = none := by
  obtain ⟨c, cs, -, -, hnext⟩ := exists_cons_of_next h
  apply item_eq_none
  rw [hnext, next_of_failed rfl]

/-- Every item takes a character at least. -/
theorem exists_count (s : Scan) :
    ∃ m ≤ s.rest.length, ∀ k, (s.item k).isSome = true ↔ k < m := by
  cases h : s.next.1 with
  | none => exact ⟨0, Nat.zero_le _, fun k => by simp [item_eq_none h k]⟩
  | some result =>
    obtain ⟨c, cs, hrest, -, hnext⟩ := exists_cons_of_next h
    have hmunch := length_munch c cs
    have hlength := (List.dropWhile_sublist isGap (l := s.rest)).length_le
    rw [hrest, List.length_cons] at hlength
    have hshorter : s.next.2.rest.length < s.rest.length := by
      rw [hnext]
      dsimp only
      omega
    obtain ⟨m, hm, hitems⟩ := exists_count s.next.2
    refine ⟨m + 1, by omega, fun k => ?_⟩
    cases k with
    | zero => simp [item, h]
    | succ k => rw [item, hitems, Nat.add_lt_add_iff_right]
termination_by s.rest.length

/-- However a scan was reached by steps, restarts and copies: It stands between two characters. The
next item is found byte by byte, with every stretch cut out between characters. A token moves the
scan to its end, forward past its start. Behind a failure there is nothing. And there are no more
items than bytes that are left. -/
theorem next_between (source : List Char) (moves : List (Copies.Move Operation)) (s : Scan)
    (hs : s ∈ Copies.after Operation.apply (start source) moves) :
    (s.offset ≤ byteLength source ∧ (Span.point s.offset).Covers source []) ∧
    s.bytewise.next = some (s.next.1, s.next.2.bytewise) ∧
    (∀ t, s.next.1 = some (.ok t) →
      s.next.2.offset = t.span.stop ∧ t.span.start < t.span.stop ∧ s.offset ≤ t.span.start) ∧
    (∀ f, s.next.1 = some (.error f) → ∀ k, s.next.2.item k = none) ∧
    ∃ m, s.offset + m ≤ byteLength source ∧ ∀ k, (s.item k).isSome = true ↔ k < m := by
  have h := Placed.of_mem_after hs
  obtain ⟨m, hm, hitems⟩ := s.exists_count
  refine ⟨⟨h.covers.bounded.2, h.covers⟩, h.bytewise_next, fun _ => forward_of_next,
    fun _ => item_of_next_eq_error, m, ?_, hitems⟩
  obtain ⟨before, hbefore, hoffset⟩ := h.exists_before
  have hlength := length_le_byteLength s.rest
  rw [hbefore, byteLength_append, hoffset]
  omega

section
open Copies

/-- A copy that has taken the name in `x é` finds the stray character, of two bytes, as its bytes are
looked at, and nothing behind it; the copy that it was made of is at the start again. -/
theorem next_between_stray :
    let source := ['x', ' ', 'é']
    let s : Scan := ⟨source, [' ', 'é'], 1, false⟩
    let moves : List (Move Operation) := [.act 0 .next, .copy 0, .act 0 .next, .act 0 .restart]
    let failure : Failure := ⟨.malformed (some "character 'é'"), ⟨2, 4⟩⟩
    s ∈ after Operation.apply (start source) moves ∧
      s.bytewise.next = some (some (.error failure), ⟨source, 4, true⟩) ∧
      ∀ k, s.next.2.item k = none := by
  intro source s moves failure
  have hs : s ∈ after Operation.apply (start source) moves := by
    apply List.mem_of_getElem? (i := 1)
    rfl
  have hnext : s.next = (some (.error failure), ⟨source, [], 4, true⟩) := by
    rfl
  obtain ⟨-, hbytewise, -, herror, -⟩ := next_between source moves s hs
  refine ⟨hs, ?_, herror failure (by rw [hnext])⟩
  rw [hbytewise, hnext]
  rfl

end

end Reckon.Scan
