import Reckon.Text.Normal
import Reckon.Token.Scan

/-! What normalization leaves of the characters of a text. Outside of ASCII three of them are
decomposed into ASCII, none of them into a gap, and nothing is composed into ASCII. The Kelvin sign,
which becomes the letter `K`, is the only one of the three that becomes a letter. -/
namespace Reckon.Text

/-- U+212A, which is not told from the letter `K`. -/
def kelvin : Char := '\u212A'

/-- A property that no text loses with its normal form: some character still has it. The Kelvin sign
may be without it. -/
structure Lasting (p : Char → Bool) : Prop where
  wide {c} : 0x80 ≤ c.toNat → c ≠ kelvin → p c = true
  /-- The Greek question mark is decomposed into it. -/
  semicolon : p ';' = true
  /-- The Greek varia is decomposed into it. -/
  grave : p '`' = true
  letter : p kelvin = true → p 'K' = true
  /-- What a number is read as that is no code point. -/
  null : p '\x00' = true

/-- The code point is that of a character outside of ASCII, but not of the Kelvin sign. -/
def isWide (n : Nat) : Bool := 0x80 ≤ n && n != kelvin.toNat

theorem isWide_of_le {n : Nat} (h : 0x80 ≤ n) (hne : n < 0x2000 ∨ 0x3000 ≤ n) :
    isWide n = true := by
  have hkelvin : n ≠ 0x212A := by omega
  simp [isWide, h, kelvin, hkelvin]

namespace Decomposition

/-- Of a character that is decomposed into two, the second one is wide. -/
theorem isWide_pairs : (composed ++ excluded).all
    (·.entries.all fun e => isWide (part e 0)) = true := by
  decide +kernel

/-- Three characters only are decomposed into ASCII. -/
theorem isWide_singletons : singleton.all (·.entries.all fun e => isWide (part e 0) ||
    [(0x37E, ';'.toNat), (0x1FEF, '`'.toNat), (kelvin.toNat, 'K'.toNat)].contains
      (part e 1, part e 0)) = true := by
  decide +kernel

theorem isWide_compositions : composed.all
    (·.entries.all fun e => isWide (part e 2)) = true := by
  decide +kernel

theorem exists_page_of_mem {pages : List Page} {code e : Nat}
    (h : e ∈ Page.entriesFor pages code) : ∃ page ∈ pages, e ∈ page.entries := by
  unfold Page.entriesFor at h
  split at h
  · next page hpage => exact ⟨page, List.mem_of_find?_eq_some hpage, h⟩
  · cases h

theorem isWide_of_composed? {a b n : Nat} (h : composed? a b = some n) : isWide n = true := by
  obtain ⟨page, hpage, hn⟩ := List.exists_of_findSome?_eq_some h
  obtain ⟨e, he, rfl⟩ := Option.map_eq_some_iff.mp hn
  have hwide := List.all_eq_true.mp isWide_compositions page hpage
  exact List.all_eq_true.mp hwide e (List.mem_of_find?_eq_some he)

end Decomposition

theorem Hangul.isWide_lead {code : Nat} (hlow : syllableBase ≤ code)
    (hhigh : code < syllableBase + syllableCount) :
    isWide (leadBase + (code - syllableBase) / tailCount / vowelCount) = true := by
  simp only [syllableBase, syllableCount, leadCount, vowelCount, tailCount] at hlow hhigh
  simp only [leadBase, syllableBase, tailCount, vowelCount]
  apply isWide_of_le <;> omega

namespace Lasting
variable {p : Char → Bool} (hp : Lasting p)
include hp

theorem ofNat {n : Nat} (h : isWide n = true) : p (Char.ofNat n) = true := by
  simp only [isWide, Bool.and_eq_true, decide_eq_true_eq, bne_iff_ne] at h
  by_cases hvalid : n.isValidChar
  · have hchar : Char.ofNat n = Char.ofNatAux n hvalid := dif_pos hvalid
    have hcode : (Char.ofNatAux n hvalid).toNat = n := rfl
    rw [hchar]
    apply hp.wide
    · exact h.1
    · intro hkelvin
      rw [hkelvin] at hcode
      exact h.2 hcode.symm
  · have hchar : Char.ofNat n = '\x00' := dif_neg hvalid
    rw [hchar]
    exact hp.null

private theorem exists_mem_of_parts? {code : Nat} {codes : List Nat}
    (h : Decomposition.parts? code = some codes) (hcode : p (Char.ofNat code) = true) :
    ∃ n ∈ codes, p (Char.ofNat n) = true := by
  have hpair {pages : List Page}
      (hpages : pages ⊆ Decomposition.composed ++ Decomposition.excluded)
      (hcodes : ((Page.entriesFor pages code).find? (Decomposition.part · 2 == code)).map
        (fun e => [Decomposition.part e 1, Decomposition.part e 0]) = some codes) :
      ∃ n ∈ codes, p (Char.ofNat n) = true := by
    obtain ⟨e, he, rfl⟩ := Option.map_eq_some_iff.mp hcodes
    obtain ⟨page, hpage, he⟩ := Decomposition.exists_page_of_mem (List.mem_of_find?_eq_some he)
    have hwide := List.all_eq_true.mp Decomposition.isWide_pairs page (hpages hpage)
    exact ⟨_, by simp, hp.ofNat (List.all_eq_true.mp hwide e he)⟩
  unfold Decomposition.parts? at h
  simp only [Option.or_eq_some_iff] at h
  obtain h | ⟨-, h | ⟨-, h⟩⟩ := h
  · exact hpair (by simp) h
  · exact hpair (by simp) h
  · obtain ⟨e, hfind, rfl⟩ := Option.map_eq_some_iff.mp h
    have hentry : Decomposition.part e 1 = code := by simpa using List.find?_some hfind
    obtain ⟨page, hpage, he⟩ := Decomposition.exists_page_of_mem (List.mem_of_find?_eq_some hfind)
    have hsingle := List.all_eq_true.mp Decomposition.isWide_singletons page hpage
    have hsingle := List.all_eq_true.mp hsingle e he
    refine ⟨_, List.mem_singleton_self _, ?_⟩
    simp only [Bool.or_eq_true, List.contains_iff_mem, List.mem_cons, Prod.mk.injEq, hentry,
      List.not_mem_nil, or_false] at hsingle
    rcases hsingle with hwide | ⟨-, hpart⟩ | ⟨-, hpart⟩ | ⟨hkelvin, hpart⟩
    · exact hp.ofNat hwide
    · rw [hpart]
      exact hp.semicolon
    · rw [hpart]
      exact hp.grave
    · rw [hpart]
      rw [hkelvin, Char.ofNat_toNat] at hcode
      exact hp.letter hcode

private theorem exists_mem_expand (fuel : Nat) {code : Nat} (h : p (Char.ofNat code) = true) :
    ∃ n ∈ Decomposition.expand fuel code, p (Char.ofNat n) = true := by
  induction fuel generalizing code with
  | zero => exact ⟨code, List.mem_singleton_self _, h⟩
  | succ fuel ih =>
    rw [Decomposition.expand]
    split
    · next codes hcodes =>
      obtain ⟨n, hn, hlasts⟩ := hp.exists_mem_of_parts? hcodes h
      obtain ⟨m, hm, hlasts⟩ := ih hlasts
      exact ⟨m, List.mem_flatMap.mpr ⟨n, hn, hm⟩, hlasts⟩
    · exact ⟨code, List.mem_singleton_self _, h⟩

private theorem exists_mem_letters? {code : Nat} {cs : List Char}
    (h : Hangul.letters? code = some cs) :
    ∃ c ∈ cs, p c = true := by
  unfold Hangul.letters? at h
  split at h
  · next hrange =>
    rw [Option.some.injEq] at h
    subst h
    refine ⟨_, ?_, hp.ofNat (Hangul.isWide_lead hrange.1 hrange.2)⟩
    split <;> exact List.mem_cons_self ..
  · cases h

theorem exists_mem_decompose {c : Char} (hc : p c = true) : ∃ d ∈ decompose c, p d = true := by
  unfold decompose
  split
  · exact ⟨c, List.mem_singleton_self _, hc⟩
  · split
    · next hletters => exact hp.exists_mem_letters? hletters
    · have hcode : p (Char.ofNat c.toNat) = true := by rwa [Char.ofNat_toNat]
      obtain ⟨n, hn, hlasts⟩ := hp.exists_mem_expand 4 hcode
      exact ⟨_, List.mem_map_of_mem hn, hlasts⟩

theorem of_composePair? {a b c : Char} (h : composePair? a b = some c) : p c = true := by
  unfold composePair? at h
  split at h
  · cases h
  · rw [Option.or_eq_some_iff] at h
    obtain h | ⟨-, h⟩ := h
    · have hwide {n : Nat} (hn : Hangul.syllableBase ≤ n) : isWide n = true := by
        unfold Hangul.syllableBase at hn
        apply isWide_of_le <;> omega
      unfold Hangul.compose? at h
      split at h
      · rw [Option.some.injEq] at h
        subst h
        exact hp.ofNat (hwide (Nat.le_add_right ..))
      · split at h
        · next hsyllable =>
          rw [Option.some.injEq] at h
          subst h
          exact hp.ofNat (hwide (Nat.le_trans hsyllable.1 (Nat.le_add_right ..)))
        · cases h
    · obtain ⟨n, hn, rfl⟩ := Option.map_eq_some_iff.mp h
      exact hp.ofNat (Decomposition.isWide_of_composed? hn)

end Lasting

private theorem subset_insertMark (c : Char) (ds : List Char) : c :: ds ⊆ insertMark c ds := by
  induction ds with
  | nil => exact List.Subset.refl _
  | cons d ds ih =>
    rw [insertMark]
    split
    · intro e he
      obtain rfl | rfl | he : e = c ∨ e = d ∨ e ∈ ds := by simpa using he
      · exact List.mem_cons_of_mem _ (ih (List.mem_cons_self ..))
      · exact List.mem_cons_self ..
      · exact List.mem_cons_of_mem _ (ih (List.mem_cons_of_mem _ he))
    · exact List.Subset.refl _

theorem subset_canonicalOrder (cs : List Char) : cs ⊆ canonicalOrder cs := by
  induction cs with
  | nil => exact List.Subset.refl _
  | cons c cs ih =>
    exact List.Subset.trans (List.cons_subset_cons c ih) (subset_insertMark c (canonicalOrder cs))

namespace Lasting
variable {p : Char → Bool} (hp : Lasting p)
include hp

private theorem exists_mem_composeAfter {cs : List Char} {starter : Char} {kept : List Char}
    (top : Nat) (h : ∃ c ∈ starter :: (kept ++ cs), p c = true) :
    ∃ c ∈ composeAfter starter kept top cs, p c = true := by
  obtain ⟨d, hd, hlasts⟩ := h
  induction cs generalizing starter kept top d with
  | nil => exact ⟨d, by simpa [composeAfter] using hd, hlasts⟩
  | cons c cs ih =>
    rw [composeAfter]
    split
    · next q hq =>
      split at hq
      · cases hq
      -- the new starter has the property, whatever it was composed of
      · exact ih top q (List.mem_cons_self ..) (hp.of_composePair? hq)
    · split
      · have hd : d = starter ∨ d ∈ kept ∨ d ∈ c :: cs := by simpa using hd
        rcases hd with hd | hd | hd
        · exact ⟨d, by simp [hd], hlasts⟩
        · exact ⟨d, by simp [hd], hlasts⟩
        · obtain ⟨e, he, hlasts⟩ := @ih c [] 0 d hd hlasts
          exact ⟨e, by simp [he], hlasts⟩
      · refine ih _ d ?_ hlasts
        simp only [List.mem_cons, List.mem_append] at hd ⊢
        grind

theorem exists_mem_composeAll {cs : List Char} (h : ∃ c ∈ cs, p c = true) :
    ∃ c ∈ composeAll cs, p c = true := by
  induction cs with
  | nil => exact h
  | cons c cs ih =>
    rw [composeAll]
    split
    · exact hp.exists_mem_composeAfter 0 h
    · obtain ⟨d, hd, hlasts⟩ := h
      obtain rfl | hd := List.mem_cons.mp hd
      · exact ⟨d, List.mem_cons_self .., hlasts⟩
      · obtain ⟨e, he, hlasts⟩ := ih ⟨d, hd, hlasts⟩
        exact ⟨e, List.mem_cons_of_mem _ he, hlasts⟩

/-- Where a character of a text has the property, some character of its normal form has it. -/
theorem exists_mem_normalize {cs : List Char} (h : ∃ c ∈ cs, p c = true) :
    ∃ c ∈ normalize cs, p c = true := by
  unfold normalize
  split
  · exact h
  · obtain ⟨c, hc, hlasts⟩ := h
    obtain ⟨d, hd, hlasts⟩ := hp.exists_mem_decompose hlasts
    apply hp.exists_mem_composeAll
    exact ⟨d, subset_canonicalOrder _ (List.mem_flatMap.mpr ⟨c, hc, hd⟩), hlasts⟩

end Lasting

/-- What is not blank is not blank in normal form. -/
theorem isGap_of_normalize {cs : List Char} (h : ∀ c ∈ normalize cs, Token.isGap c = true) :
    ∀ c ∈ cs, Token.isGap c = true := by
  have hshown : Lasting fun c => !Token.isGap c := by
    refine ⟨fun {c} hc _ => ?_, rfl, rfl, fun _ => rfl, rfl⟩
    rw [Bool.not_eq_true', Bool.eq_false_iff]
    intro hgap
    simp only [Token.isGap, Bool.or_eq_true, beq_iff_eq] at hgap
    rcases hgap with ((rfl | rfl) | rfl) | rfl <;> exact absurd hc (by decide)
  intro c hc
  cases hgap : Token.isGap c with
  | true => rfl
  | false =>
    obtain ⟨d, hd, hlasts⟩ := hshown.exists_mem_normalize ⟨c, hc, by rw [hgap]; rfl⟩
    rw [h d hd] at hlasts
    cases hlasts

/-- The letter `K` for the Kelvin sign, and any other character for itself. -/
def plain (c : Char) : Char := if c = kelvin then 'K' else c

theorem combiningClass_of_below {c : Char} (h : c.toNat < firstMark) : combiningClass c = 0 := by
  have hpages : CombiningClass.pages.all (firstMark ≤ ·.first) = true := by decide
  have hnone : Page.entriesFor CombiningClass.pages c.toNat = [] := by
    unfold Page.entriesFor
    split
    · next page hpage =>
      have hfirst := List.all_eq_true.mp hpages page (List.mem_of_find?_eq_some hpage)
      have hfind := List.find?_some hpage
      simp only [Bool.and_eq_true, decide_eq_true_eq] at hfirst hfind
      omega
    · rfl
  simp [combiningClass, hnone]

section
variable {cs : List Char} (h : ∀ c ∈ cs, c.toNat < firstMark)
include h

theorem canonicalOrder_of_below : canonicalOrder cs = cs := by
  induction cs with
  | nil => rfl
  | cons c cs ih =>
    have hc : combiningClass c = 0 := combiningClass_of_below (h c (List.mem_cons_self ..))
    have hcs := ih fun d hd => h d (List.mem_cons_of_mem _ hd)
    change insertMark c (canonicalOrder cs) = c :: cs
    rw [hcs]
    cases cs with
    | nil => rfl
    | cons d ds => simp [insertMark, hc]

private theorem composeAfter_of_below (starter : Char) :
    composeAfter starter [] 0 cs = starter :: cs := by
  induction cs generalizing starter with
  | nil => rfl
  | cons c cs ih =>
    have hbelow := h c (List.mem_cons_self ..)
    have hc := combiningClass_of_below hbelow
    have hcs := ih (fun d hd => h d (List.mem_cons_of_mem _ hd)) c
    simp [composeAfter, composePair?, hbelow, hc, hcs]

theorem composeAll_of_below : composeAll cs = cs := by
  cases cs with
  | nil => rfl
  | cons c cs =>
    have hc := combiningClass_of_below (h c (List.mem_cons_self ..))
    rw [composeAll, if_pos hc, composeAfter_of_below fun d hd => h d (List.mem_cons_of_mem _ hd)]

end

theorem decompose_plain {c : Char} (h : 0x80 ≤ c.toNat → c = kelvin) :
    decompose c = [plain c] := by
  by_cases hkelvin : c = kelvin
  · subst hkelvin
    decide +kernel
  · have hbelow : c.toNat < 0xC0 := by
      have hascii : ¬ 0x80 ≤ c.toNat := fun hc => hkelvin (h hc)
      omega
    rw [decompose, plain, if_pos hbelow, if_neg hkelvin]

theorem lt_of_mem_map_plain {cs : List Char} (h : ∀ c ∈ cs, 0x80 ≤ c.toNat → c = kelvin) :
    ∀ c ∈ cs.map plain, c.toNat < firstMark := by
  intro c hc
  obtain ⟨d, hd, rfl⟩ := List.mem_map.mp hc
  unfold plain
  split
  · decide
  · next hkelvin =>
    have hascii : d.toNat < 0x80 := Nat.not_le.mp fun hwide => hkelvin (h d hd hwide)
    exact Nat.lt_trans hascii (by decide)

/-- A text of ASCII and Kelvin signs is normalized character by character. -/
theorem normalize_plain {cs : List Char} (h : ∀ c ∈ cs, 0x80 ≤ c.toNat → c = kelvin) :
    normalize cs = cs.map plain := by
  have hlt := lt_of_mem_map_plain h
  unfold normalize
  split
  · next hbelow =>
    have hsame : ∀ c ∈ cs, plain c = c := by
      intro c hc
      have hlt := List.all_eq_true.mp hbelow c hc
      refine if_neg fun hkelvin => ?_
      rw [hkelvin] at hlt
      exact absurd hlt (by decide)
    rw [List.map_congr_left hsame, List.map_id']
  · have hdecompose : cs.flatMap decompose = cs.map plain := by
      have hparts : cs.map decompose = cs.map fun c => [plain c] :=
        List.map_congr_left fun c hc => decompose_plain (h c hc)
      rw [List.flatMap_def, hparts, ← List.flatMap_def, ← List.map_eq_flatMap]
    -- without marks there is nothing to put in order or to compose
    rw [hdecompose, canonicalOrder_of_below hlt, composeAll_of_below hlt]

end Reckon.Text
