import Reckon.Proofs.Occurrence
import Reckon.Proofs.Rendering

/-! Expressions in place of variables. A variable may be replaced by any expression in parentheses
that has its value: a group is an atom, as a name is, so that the tokens around it spell the same
tree as before, and the names that it brings along resolve whenever it is reached. -/
namespace Reckon
open Token

namespace Token

/-- Replaces the variables of a sequence of tokens, which may stand behind a dot, by `τ`, and the
other tokens by `φ`. The variables are the names that are read as such: neither a name behind a dot
nor a `Math` before one. -/
def rewrite (φ : Token → Token) (τ : Token → List Token) (behindDot : Bool) :
    List Token → List Token
  | [] => []
  | t :: ts =>
    match t.kind with
    | .identifier _ =>
      if behindDot || (t.isMath && startsWith .dot ts) then φ t :: rewrite φ τ false ts
      else τ t ++ rewrite φ τ false ts
    | _ => φ t :: rewrite φ τ (t.is .dot) ts

def substitute (x : String) (group ts : List Token) : List Token :=
  rewrite id (fun t => if t.lexeme = x then group else [t]) false ts

variable {φ : Token → Token} {τ : Token → List Token}

theorem rewrite_symbol {t : Token} {s : Symbol} (hk : t.kind = .symbol s) (behindDot : Bool)
    (ts : List Token) :
    rewrite φ τ behindDot (t :: ts) = φ t :: rewrite φ τ (s == .dot) ts := by
  rw [rewrite, hk, is_of_kind hk]

theorem rewrite_of_ne_dot {t : Token} {s : Symbol} (hk : t.kind = .symbol s) (hs : s ≠ .dot)
    (behindDot : Bool) (ts : List Token) :
    rewrite φ τ behindDot (t :: ts) = φ t :: rewrite φ τ false ts := by
  rw [rewrite_symbol hk, beq_false_of_ne hs]

private theorem rewrite_number {t : Token} {x : Float} (hk : t.kind = .number x) (ts : List Token) :
    rewrite φ τ false (t :: ts) = φ t :: rewrite φ τ false ts := by
  have hdot : t.is .dot = false := is_eq_false_iff.mpr (by simp [hk])
  rw [rewrite, hk, hdot]

private theorem rewrite_var {t : Token} {name : String} (hk : t.kind = .identifier name)
    {ts : List Token} (h : Avoids [.dot] ts) :
    rewrite φ τ false (t :: ts) = τ t ++ rewrite φ τ false ts := by
  have hdot : startsWith .dot ts = false := startsWith_eq_false h (List.mem_singleton_self _)
  simp [rewrite, hk, hdot]

private theorem rewrite_math {t dot : Token} (hk : t.kind = .identifier "Math")
    (hdot : dot.kind = .symbol .dot) (ts : List Token) :
    rewrite φ τ false (t :: dot :: ts) = φ t :: φ dot :: rewrite φ τ true ts := by
  have hmath : t.isMath = true := isMath_iff.mpr hk
  have hstart : startsWith .dot (dot :: ts) = true := is_iff.mpr hdot
  rw [rewrite, hk]
  simp only [hmath, hstart, Bool.and_true, Bool.or_true, if_true]
  rw [rewrite_symbol hdot]
  rfl

private theorem rewrite_member {t : Token} {name : String} (hk : t.kind = .identifier name)
    (ts : List Token) : rewrite φ τ true (t :: ts) = φ t :: rewrite φ τ false ts := by
  simp [rewrite, hk]

/-- Tokens that are replaced by one token each. -/
theorem rewrite_singleton (behindDot : Bool) (ts : List Token) :
    rewrite φ (fun t => [φ t]) behindDot ts = ts.map φ := by
  induction ts generalizing behindDot with
  | nil => rfl
  | cons t ts ih =>
    unfold rewrite
    split
    · split <;> simp [ih]
    · simp [ih]

end Token

namespace Tree
variable (φ : Token → Token) (σ : Token → Tree)

mutual

/-- Puts trees in place of the variables, and the tokens `φ` in place of the other names. -/
def replace : Tree → Tree
  | .number x => .number x
  | .var name => σ name
  | .constant name => .constant (φ name)
  | .call name args => .call (φ name) (replaceAll args)
  | .group e => .group e.replace
  | .signed negative e => .signed negative e.replace
  | .binary op l r => .binary op l.replace r.replace

def replaceAll : List Tree → List Tree
  | [] => []
  | e :: es => e.replace :: replaceAll es

end

end Tree

theorem mapError_bind_congr {ε ε' α β : Type} {g : ε → ε'} {r s : Except ε α}
    {k l : α → Except ε β} (hr : r.mapError g = s.mapError g)
    (hk : ∀ a, (k a).mapError g = (l a).mapError g) :
    (r >>= k).mapError g = (s >>= l).mapError g := by
  have hright : (s >>= l).mapError g = s.mapError g >>= fun a => (l a).mapError g :=
    mapError_bind_eq rfl fun _ => rfl
  rw [hright]
  exact mapError_bind_eq hr hk

namespace Resolution

theorem mapError_ofToken_congr {α : Type} (named : String → Except Cause α) {s t : Token}
    (h : s.lexeme = t.lexeme) :
    (ofToken named s).mapError (·.cause) = (ofToken named t).mapError (·.cause) := by
  rw [mapError_ofToken, mapError_ofToken, h]

theorem mapError_variableValue_congr {b c : Bindings} {s t : Token} (h : s.lexeme = t.lexeme)
    (hget : b.get? s.lexeme = c.get? t.lexeme) :
    (variableValue b s).mapError (·.cause) = (variableValue c t).mapError (·.cause) := by
  rw [variableValue, variableValue, mapError_ofToken, mapError_ofToken, variableNamed, hget, h]
  rfl

end Resolution

namespace Tree
variable {φ : Token → Token} {σ : Token → Tree} {b c : Bindings}

mutual

/-- Trees that have the values of the variables may be put in their place. -/
theorem value_replace (hφ : ∀ t, (φ t).lexeme = t.lexeme)
    (hσ : ∀ t, ((σ t).value b).mapError (·.cause) =
      (Resolution.variableValue c t).mapError (·.cause)) : (e : Tree) →
    ((e.replace φ σ).value b).mapError (·.cause) = (e.value c).mapError (·.cause)
  | .number x => rfl
  | .var name => hσ name
  | .constant name => by
    rw [replace, value, value]
    exact Resolution.mapError_ofToken_congr _ (hφ name)
  | .call name args => by
    have hargs := values_replaceAll hφ hσ args
    rw [replace, value, value]
    refine mapError_bind_congr (Resolution.mapError_ofToken_congr _ (hφ name)) fun f => ?_
    exact mapError_bind_congr hargs fun _ => rfl
  | .group e => by
    rw [replace, value, value]
    exact value_replace hφ hσ e
  | .signed negative e => by
    have he := value_replace hφ hσ e
    rw [replace, value, value]
    exact mapError_bind_congr he fun _ => rfl
  | .binary op l r => by
    have hl := value_replace hφ hσ l
    have hr := value_replace hφ hσ r
    rw [replace, value, value]
    exact mapError_bind_congr hl fun x => mapError_bind_congr hr fun _ => rfl

theorem values_replaceAll (hφ : ∀ t, (φ t).lexeme = t.lexeme)
    (hσ : ∀ t, ((σ t).value b).mapError (·.cause) =
      (Resolution.variableValue c t).mapError (·.cause)) : (es : List Tree) →
    (values b (replaceAll φ σ es)).mapError (·.cause) = (values c es).mapError (·.cause)
  | [] => rfl
  | e :: es => by
    have he := value_replace hφ hσ e
    have hes := values_replaceAll hφ hσ es
    rw [replaceAll, values, values]
    exact mapError_bind_congr he fun x => mapError_bind_congr hes fun _ => rfl

end

end Tree

namespace Phrase

def replace (φ : Token → Token) (σ : Token → Tree) : Phrase → Phrase
  | .chain l e => .chain l (e.replace φ σ)
  | .operands l left e => .operands l (left.replace φ σ) (e.replace φ σ)
  | .term e => .term (e.replace φ σ)
  | .atom e => .atom (e.replace φ σ)
  | .member e => .member (e.replace φ σ)
  | .arguments es => .arguments (Tree.replaceAll φ σ es)

def behindDot : Phrase → Bool
  | .member _ => true
  | _ => false

theorem replace_operand (φ : Token → Token) (σ : Token → Tree) (l : Level) (e : Tree) :
    (l.operand e).replace φ σ = l.operand (e.replace φ σ) := by
  cases l <;> rfl

theorem behindDot_operand (l : Level) (e : Tree) : (l.operand e).behindDot = false := by
  cases l <;> rfl

section
variable {φ : Token → Token} {τ : Token → List Token} {σ : Token → Tree}

/-- The replacement of what spells a phrase spells the replacement of the phrase, provided that what
stands for a variable is an atom, as the variable was. -/
theorem Spells.rewrite (hφ : ∀ t, (φ t).kind = t.kind)
    (hτ : ∀ t name, t.kind = .identifier name → Spells (.atom (σ t)) (τ t)) {p : Phrase}
    {ks : List Token} (h : Spells p ks) {rest : List Token} (hrest : Avoids afterTerm rest) :
    ∃ ls, Spells (p.replace φ σ) ls ∧
      Token.rewrite φ τ p.behindDot (ks ++ rest) = ls ++ Token.rewrite φ τ false rest := by
  induction h generalizing rest with
  | @chain l a e ks ls _ hls iha ihs =>
    obtain ⟨us, hus, heq⟩ := iha (hls.avoids_afterTerm hrest)
    obtain ⟨vs, hvs, heq'⟩ := ihs hrest
    rw [replace_operand] at hus
    rw [behindDot_operand] at heq
    refine ⟨us ++ vs, .chain hus hvs, ?_⟩
    rw [List.append_assoc, List.append_assoc]
    exact heq.trans (congrArg _ heq')
  | noOperand => exact ⟨[], .noOperand, rfl⟩
  | @operand l t s op left a e ks ls hs hk _ hls iha ihs =>
    obtain ⟨us, hus, heq⟩ := iha (hls.avoids_afterTerm hrest)
    obtain ⟨vs, hvs, heq'⟩ := ihs hrest
    rw [replace_operand] at hus
    rw [behindDot_operand] at heq
    refine ⟨φ t :: (us ++ vs), .operand hs ((hφ t).trans hk) hus hvs, ?_⟩
    show Token.rewrite φ τ false (t :: (ks ++ ls ++ rest)) = _
    rw [rewrite_of_ne_dot hk (ne_dot_of_operator hs), List.append_assoc, heq, List.cons_append,
      List.append_assoc]
    exact congrArg (fun rs => φ t :: (us ++ rs)) heq'
  | unsigned _ ih =>
    obtain ⟨us, hus, heq⟩ := ih hrest
    exact ⟨us, .unsigned hus, heq⟩
  | @signed t s negative e ks hs hk _ ih =>
    obtain ⟨us, hus, heq⟩ := ih hrest
    refine ⟨φ t :: us, .signed hs ((hφ t).trans hk) hus, ?_⟩
    exact (rewrite_of_ne_dot hk (ne_dot_of_sign hs) false _).trans (congrArg (φ t :: ·) heq)
  | @number t x hk => exact ⟨[φ t], .number ((hφ t).trans hk), rewrite_number hk rest⟩
  | @var t name hk => exact ⟨τ t, hτ t name hk, rewrite_var hk (hrest.mono (by decide))⟩
  | @group opening e ks close hk _ hclose ih =>
    obtain ⟨us, hus, heq⟩ := @ih (close :: rest) (avoids_of_kind _ hclose (by decide))
    refine ⟨φ opening :: (us ++ [φ close]),
      .group ((hφ _).trans hk) hus ((hφ _).trans hclose), ?_⟩
    rw [rewrite_symbol hclose] at heq
    rw [List.cons_append, List.cons_append, List.append_assoc, List.append_assoc]
    exact (rewrite_symbol hk ..).trans (congrArg (φ opening :: ·) heq)
  | @member t dot e ks hk hdot _ ih =>
    obtain ⟨us, hus, heq⟩ := ih hrest
    refine ⟨φ t :: φ dot :: us, .member ((hφ _).trans hk) ((hφ _).trans hdot) hus, ?_⟩
    exact (rewrite_math hk hdot _).trans (congrArg (fun rs => φ t :: φ dot :: rs) heq)
  | @constant t name hk =>
    exact ⟨[φ t], .constant ((hφ t).trans hk), rewrite_member hk rest⟩
  | @noArgument t name opening close hk hopen hclose =>
    refine ⟨[φ t, φ opening, φ close],
      .noArgument ((hφ _).trans hk) ((hφ _).trans hopen) ((hφ _).trans hclose), ?_⟩
    show Token.rewrite φ τ true (t :: opening :: close :: rest) = _
    rw [rewrite_member hk, rewrite_symbol hopen, rewrite_symbol hclose]
    rfl
  | @call t name opening es ks close hk hopen _ hclose ih =>
    obtain ⟨us, hus, heq⟩ := @ih (close :: rest) (avoids_of_kind _ hclose (by decide))
    refine ⟨φ t :: φ opening :: (us ++ [φ close]),
      .call ((hφ _).trans hk) ((hφ _).trans hopen) hus ((hφ _).trans hclose), ?_⟩
    rw [rewrite_symbol hclose] at heq
    show Token.rewrite φ τ true (t :: opening :: (ks ++ [close] ++ rest)) = _
    rw [rewrite_member hk, rewrite_symbol hopen, List.append_assoc]
    simp only [List.cons_append, List.append_assoc, List.nil_append]
    exact congrArg (fun rs => φ t :: φ opening :: rs) heq
  | argument _ ih =>
    obtain ⟨us, hus, heq⟩ := ih hrest
    exact ⟨us, .argument hus, heq⟩
  | @moreArguments e ks comma es ls _ hcomma _ ihe ihs =>
    obtain ⟨us, hus, heq⟩ := @ihe (comma :: (ls ++ rest)) (avoids_of_kind _ hcomma (by decide))
    obtain ⟨vs, hvs, heq'⟩ := ihs hrest
    refine ⟨us ++ φ comma :: vs, .moreArguments hus ((hφ _).trans hcomma) hvs, ?_⟩
    rw [rewrite_symbol hcomma] at heq
    rw [List.append_assoc, List.append_assoc]
    exact heq.trans (congrArg (fun rs => us ++ φ comma :: rs) heq')

end

end Phrase

namespace Expression

/-- An expression in parentheses may stand for a variable that is bound to its value: where the
nesting allows it the result is an expression again, and has the same value or fails for the same
reason. -/
theorem value_substitute (x : String) (source inner : Expression) (b : Bindings) (v : Float)
    (opening close : Token) (limits : Limits) (hx : x ≠ Bindings.reserved)
    (hinner : inner.value b = .ok v) (hfinite : v.isFinite = true)
    (hopen : opening.kind = .symbol .openParen) (hclose : close.kind = .symbol .closeParen)
    (hdepth : ∀ p, p <+: (substitute x (opening :: (inner.tokens ++ [close]))
      source.tokens).map (·.kind) → Grammar.nesting p ≤ limits.effectiveDepth) :
    ∃ c result, b.insert x (.number v) = .ok c ∧
      ofTokens? limits (substitute x (opening :: (inner.tokens ++ [close])) source.tokens) =
        .ok result ∧
      (result.value b).mapError (·.cause) = (source.value c).mapError (·.cause) := by
  obtain ⟨c, hc⟩ : ∃ c, b.insert x (.number v) = .ok c := by
    unfold Bindings.insert
    rw [if_neg hx]
    exact ⟨_, rfl⟩
  obtain ⟨tree, htree, hvalue⟩ := source.exists_tree
  obtain ⟨innerTree, hinnerTree, hinnerValue⟩ := inner.exists_tree
  let σ (t : Token) : Tree := if t.lexeme = x then .group innerTree else .var t
  have hτ (t : Token) (name : String) (hk : t.kind = .identifier name) :
      Phrase.Spells (.atom (σ t))
        (if t.lexeme = x then opening :: (inner.tokens ++ [close]) else [t]) := by
    by_cases ht : t.lexeme = x
    · simp only [σ, if_pos ht]
      exact .group hopen hinnerTree hclose
    · simp only [σ, if_neg ht]
      exact .var hk
  have hσ (t : Token) : ((σ t).value b).mapError (·.cause) =
      (Resolution.variableValue c t).mapError (·.cause) := by
    have hget := Bindings.get?_insert hc t.lexeme
    by_cases ht : t.lexeme = x
    · have hnumber : (BoundValue.number v).number? = some v := by
        simp [BoundValue.number?, BoundValue.rawNumber?, hfinite]
      rw [if_pos ht.symm] at hget
      simp only [σ, if_pos ht, Tree.value, ← hinnerValue, hinner, Resolution.variableValue,
        Resolution.ofToken, Resolution.variableNamed, hget, hnumber]
      rfl
    · rw [if_neg (Ne.symm ht)] at hget
      simp only [σ, if_neg ht, Tree.value]
      exact Resolution.mapError_variableValue_congr rfl hget.symm
  obtain ⟨ls, hls, heq⟩ := htree.rewrite (φ := id) (fun _ => rfl) hτ (avoids_nil _)
  have hresult : substitute x (opening :: (inner.tokens ++ [close])) source.tokens = ls := by
    rw [List.append_nil] at heq
    exact heq.trans (List.append_nil ls)
  rw [hresult] at hdepth ⊢
  obtain ⟨result, hok, hresultValue⟩ := exists_ofTokens?_of_spells hls hdepth
  refine ⟨c, result, hc, hok, ?_⟩
  rw [hresultValue, hvalue]
  exact Tree.value_replace (fun _ => rfl) hσ tree

/-- A sum in place of each factor of a square. -/
theorem value_substitute_square : ∃ (source inner result : Expression) (c : Bindings),
    source.tokens.map (·.lexeme) = ["x", "*", "x"] ∧
      inner.tokens.map (·.lexeme) = ["1", "+", "1"] ∧
      result.tokens.map (·.lexeme) =
        ["(", "1", "+", "1", ")", "*", "(", "1", "+", "1", ")"] ∧
      Bindings.empty.insert "x" (.number (1 + 1)) = .ok c ∧
      (result.value Bindings.empty).mapError (·.cause) = (source.value c).mapError (·.cause) := by
  let x : Token := ⟨.identifier "x", "x", ⟨0, 1⟩⟩
  let star : Token := ⟨.symbol .star, "*", ⟨1, 2⟩⟩
  let one : Token := ⟨.number 1, "1", ⟨0, 1⟩⟩
  let plus : Token := ⟨.symbol .plus, "+", ⟨1, 2⟩⟩
  let opening : Token := ⟨.symbol .openParen, "(", ⟨0, 1⟩⟩
  let close : Token := ⟨.symbol .closeParen, ")", ⟨1, 2⟩⟩
  have hflat (ts : List Token) (hlength : ts.length ≤ 11) :
      ∀ p, p <+: ts.map (·.kind) → Grammar.nesting p ≤ ({} : Limits).effectiveDepth := by
    intro p hp
    have hnesting := Grammar.nesting_le_length p
    have hle := hp.length_le
    rw [List.length_map] at hle
    have hlimit : ({} : Limits).effectiveDepth = 256 := rfl
    omega
  have hfactor : Phrase.Spells (Level.product.operand (.var x)) [x] := .unsigned (.var rfl)
  have hsource : Phrase.Spells (.chain .sum (.binary .mul (.var x) (.var x))) [x, star, x] :=
    .chain (l := .sum) (.chain hfactor (.operand (s := .star) (by decide) rfl hfactor .noOperand))
      .noOperand
  have hsummand : Phrase.Spells (Level.sum.operand (.number 1)) [one] :=
    .chain (l := .product) (.unsigned (.number rfl)) .noOperand
  have hinner : Phrase.Spells (.chain .sum (.binary .add (.number 1) (.number 1)))
      [one, plus, one] :=
    .chain hsummand (.operand (s := .plus) (by decide) rfl hsummand .noOperand)
  obtain ⟨source, hsourceOk, -⟩ :=
    exists_ofTokens?_of_spells hsource (hflat _ (by decide))
  obtain ⟨inner, hinnerOk, hinnerValue⟩ :=
    exists_ofTokens?_of_spells hinner (hflat _ (by decide))
  have hsourceTokens := tokens_of_ofTokens? hsourceOk
  have hinnerTokens := tokens_of_ofTokens? hinnerOk
  have hresult : substitute "x" (opening :: (inner.tokens ++ [close])) source.tokens =
      [opening, one, plus, one, close, star, opening, one, plus, one, close] := by
    rw [hsourceTokens, hinnerTokens]
    decide
  obtain ⟨c, result, hc, hok, hvalue⟩ := value_substitute "x" source inner Bindings.empty (1 + 1)
    opening close {} (by decide) (hinnerValue _) (by decide) rfl rfl
    (hresult ▸ hflat _ (by decide))
  have hresultTokens := (tokens_of_ofTokens? hok).trans hresult
  refine ⟨source, inner, result, c, ?_, ?_, ?_, hc, hvalue⟩
  · rw [hsourceTokens]
    rfl
  · rw [hinnerTokens]
    rfl
  · rw [hresultTokens]
    rfl

end Expression

end Reckon
