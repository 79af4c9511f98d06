import Reckon.Interpreter
import Reckon.Proofs.Adjacency
import Reckon.Proofs.Frames.Recognizer

/-! The evaluation with a bounded stack of calls. Between an open parenthesis and the next one the
climbs are nested at most three deep, one for each precedence and one above them. -/
namespace Reckon
open Token

namespace Interpreter

mutual

/-- `climb` with `frames` calls of it active at a time at most. -/
def climbWithin (b : Bindings) (finish frames min : Nat) (ts : List Token) :
    Except Stop (Float × Shorter ts) :=
  match frames with
  | 0 => .error .exceeded
  | frames + 1 => do
    let (lhs, ⟨rest, h⟩) ← termWithin b finish frames ts
    let (value, left) ← climbFromWithin b finish frames min lhs rest
    return (value, Shorter.transLe ⟨rest, h⟩ left)
termination_by (ts.length, 4)

def climbFromWithin (b : Bindings) (finish frames min : Nat) (lhs : Float) (ts : List Token) :
    Except Stop (Float × NoLonger ts) :=
  match ts with
  | [] => .ok (lhs, .refl [])
  | t :: rest =>
    match BinaryOp.ofKind? t.kind with
    | none => .ok (lhs, .refl (t :: rest))
    | some op =>
      if op.precedence < min then .ok (lhs, .refl (t :: rest))
      else do
        let (rhs, ⟨rest, h⟩) ← climbWithin b finish frames (op.precedence + 1) rest
        let (value, left) ← climbFromWithin b finish frames min (op.apply lhs rhs) rest
        return (value, (Shorter.cons t (Shorter.transLe ⟨rest, h⟩ left)).toNoLonger)
termination_by (ts.length, 0)

def termWithin (b : Bindings) (finish frames : Nat) (ts : List Token) :
    Except Stop (Float × Shorter ts) :=
  match ts with
  | [] => atomWithin b finish frames []
  | t :: rest =>
    if t.is .minus then do
      let (value, left) ← atomWithin b finish frames rest
      return (-value, .cons t left)
    else if t.is .plus then do
      let (value, left) ← atomWithin b finish frames rest
      return (value, .cons t left)
    else atomWithin b finish frames (t :: rest)
termination_by (ts.length, 3)

def atomWithin (b : Bindings) (finish frames : Nat) (ts : List Token) :
    Except Stop (Float × Shorter ts) :=
  match ts with
  | [] => .error (.failed (endOfInput finish))
  | t :: rest =>
    match t.kind with
    | .number value => .ok (value, .tail t rest)
    | .identifier _ =>
      match rest with
      | dot :: rest' =>
        if t.isMath && dot.is .dot then do
          let (value, left) ← memberWithin b finish frames rest'
          return (value, .cons t (.cons dot left))
        else do
          return (← unbounded (Resolution.variableValue b t), .tail t (dot :: rest'))
      | [] => do return (← unbounded (Resolution.variableValue b t), .tail t [])
    | .symbol .openParen => do
      let (value, ⟨rest, h⟩) ← climbWithin b finish frames 0 rest
      return (value, .cons t (Shorter.trans ⟨rest, h⟩ (← unbounded (close finish rest))))
    | .symbol _ => .error (.failed (Recognizer.unexpected t))
termination_by (ts.length, 2)

def memberWithin (b : Bindings) (finish frames : Nat) (ts : List Token) :
    Except Stop (Float × Shorter ts) :=
  match ts with
  | [] => .error (.failed (endOfInput finish))
  | name :: rest =>
    match rest with
    | opening :: rest' =>
      if opening.is .openParen then do
        let f ← unbounded (Resolution.callee name)
        let (args, left) ← argumentsWithin b finish frames rest'
        return (f.apply args, .cons name (.cons opening left))
      else do
        return (← unbounded (Resolution.constantValue name), .tail name (opening :: rest'))
    | [] => do return (← unbounded (Resolution.constantValue name), .tail name [])
termination_by (ts.length, 0)

def argumentsWithin (b : Bindings) (finish frames : Nat) (ts : List Token) :
    Except Stop (List Float × Shorter ts) :=
  match ts with
  | [] => argumentsFromWithin b finish frames []
  | t :: rest =>
    if t.is .closeParen then .ok ([], .tail t rest)
    else argumentsFromWithin b finish frames (t :: rest)
termination_by (ts.length, 6)

def argumentsFromWithin (b : Bindings) (finish frames : Nat) (ts : List Token) :
    Except Stop (List Float × Shorter ts) := do
  let (value, ⟨rest, h⟩) ← climbWithin b finish frames 0 ts
  match rest, h with
  | [], _ => .error (.failed (Recognizer.unbalanced (Span.point finish)))
  | t :: rest', h =>
    let left : Shorter ts := ⟨t :: rest', h⟩
    if t.is .comma then do
      have _ : rest'.length < ts.length := Shorter.lt_of_cons h
      let (values, last) ← argumentsFromWithin b finish frames rest'
      return (value :: values, left.trans (.cons t last))
    else do
      return ([value], left.trans (← unbounded (close finish (t :: rest'))))
termination_by (ts.length, 5)

end

def runWithin (frames : Nat) (b : Bindings) (ts : List Token) : Except Stop Float := do
  let (value, ⟨rest, _⟩) ← climbWithin b (Token.finish ts) frames 0 ts
  match rest with
  | [] => return value
  | t :: _ => .error (.failed (Recognizer.unexpected t))

/-- Parentheses fit, and every token may stand behind the one before. What stands behind a dot is
taken for a name without a look at its kind: a parenthesis there would not be counted. -/
structure Orderly (limit depth : Nat) (ts : List Token) : Prop where
  fits : Recognizer.Fits limit depth ts
  adjoining : Adjoining (ts.map (·.kind))

namespace Orderly
variable {limit depth : Nat} {t : Token} {ts : List Token}

theorem behind_symbol (h : Orderly limit depth (t :: ts)) {s : Symbol} (hs : t.is s = true)
    (hparens : s ≠ .openParen ∧ s ≠ .closeParen) : Orderly limit depth ts :=
  ⟨h.fits.behind_symbol (is_iff.mp hs) hparens, h.adjoining.2⟩

theorem behind_identifier (h : Orderly limit depth (t :: ts)) {name : String}
    (hk : t.kind = .identifier name) : Orderly limit depth ts :=
  ⟨h.fits.behind (by simp [hk]) (by simp [hk]), h.adjoining.2⟩

theorem behind_operator (h : Orderly limit depth (t :: ts)) {op : BinaryOp}
    (hop : BinaryOp.ofKind? t.kind = some op) : Orderly limit depth ts :=
  ⟨h.fits.behind_operator hop, h.adjoining.2⟩

theorem behind_open (h : Orderly limit depth (t :: ts)) (hk : t.kind = .symbol .openParen) :
    depth < limit ∧ Orderly limit (depth + 1) ts := by
  obtain ⟨hdepth, hfits⟩ := h.fits.behind_open hk
  exact ⟨hdepth, hfits, h.adjoining.2⟩

theorem behind_close (h : Orderly limit (depth + 1) ts) {finish : Nat} {left : Shorter ts}
    (hleft : close finish ts = .ok left) : Orderly limit depth left.1 := by
  cases ts with
  | nil => cases hleft
  | cons t ts =>
    rw [close] at hleft
    by_cases hk : t.is .closeParen = true
    · rw [if_pos hk] at hleft
      cases hleft
      exact ⟨h.fits.behind_close (is_iff.mp hk), h.adjoining.2⟩
    · rw [if_neg hk] at hleft
      cases hleft

/-- Behind a dot stands a name. -/
theorem behind_dot (h : Orderly limit depth (t :: ts)) (hdot : t.is .dot = true) :
    ∀ name ∈ ts.head?, ∃ n, name.kind = .identifier n := by
  intro name hname
  cases ts with
  | nil => cases hname
  | cons u ts =>
    obtain rfl : u = name := Option.some.inj hname
    have hadjoins : t.kind.adjoins u.kind = true := h.adjoining.1 _ rfl
    rw [is_iff.mp hdot] at hadjoins
    cases hk : u.kind with
    | identifier n => exact ⟨n, rfl⟩
    | number x =>
      rw [hk] at hadjoins
      cases hadjoins
    | symbol s =>
      rw [hk] at hadjoins
      cases s <;> cases hadjoins

end Orderly

section agrees
variable {b : Bindings} {finish limit : Nat}

mutual

/-- A climb from `min` has room in three frames for each parenthesis that may still be opened, and
in three less `min` for itself. -/
theorem agrees_climb : (ts : List Token) → {frames depth min : Nat} → Orderly limit depth ts →
    min ≤ 2 → 3 * (limit - depth) + 3 ≤ frames + min →
    Agrees (fun p => Orderly limit depth p.2.1)
      (climbWithin b finish frames min ts) (climb b finish min ts)
  | ts, 0, depth, min, hts, hmin, hframes => by omega
  | ts, frames + 1, depth, min, hts, hmin, hframes => by
    have hroom : 3 * (limit - depth) ≤ frames := by omega
    have hloop : 3 * (limit - depth) + 2 ≤ frames + min := by omega
    rw [climbWithin, climb]
    refine (agrees_term ts hts hroom).bind fun ⟨lhs, rest, h⟩ hrest => ?_
    exact (agrees_climbFrom rest hrest hloop).bind fun p hp => .ok hp
termination_by ts => (ts.length, 4)

/-- The right operand of an operator that binds as tightly as `min` is climbed from above it, so
that the operands nested in it find a frame less at most. -/
theorem agrees_climbFrom : (ts : List Token) → {frames depth min : Nat} → {lhs : Float} →
    Orderly limit depth ts → 3 * (limit - depth) + 2 ≤ frames + min →
    Agrees (fun p => Orderly limit depth p.2.1)
      (climbFromWithin b finish frames min lhs ts) (climbFrom b finish min lhs ts)
  | [], frames, depth, min, lhs, hts, hframes => by
    rw [climbFromWithin, climbFrom]
    exact .ok hts
  | t :: ts, frames, depth, min, lhs, hts, hframes => by
    rw [climbFromWithin, climbFrom]
    cases hop : BinaryOp.ofKind? t.kind with
    | none => exact .ok hts
    | some op =>
      dsimp only
      have hle := op.precedence_le_one
      by_cases hmin : op.precedence < min
      · rw [if_pos hmin, if_pos hmin]
        exact .ok hts
      · rw [if_neg hmin, if_neg hmin]
        have hright : 3 * (limit - depth) + 3 ≤ frames + (op.precedence + 1) := by omega
        have hclimb := agrees_climb ts (hts.behind_operator hop) (by omega) hright
        refine hclimb.bind fun ⟨rhs, rest, h⟩ hrest => ?_
        exact (agrees_climbFrom rest hrest hframes).bind fun p hp => .ok hp
termination_by ts => (ts.length, 0)

theorem agrees_term : (ts : List Token) → {frames depth : Nat} → Orderly limit depth ts →
    3 * (limit - depth) ≤ frames →
    Agrees (fun p => Orderly limit depth p.2.1) (termWithin b finish frames ts) (term b finish ts)
  | [], frames, depth, hts, hroom => by
    rw [termWithin, term]
    exact agrees_atom [] hts hroom
  | t :: ts, frames, depth, hts, hroom => by
    rw [termWithin, term]
    by_cases hminus : t.is .minus = true
    · rw [if_pos hminus, if_pos hminus]
      have hbehind : Orderly limit depth ts := hts.behind_symbol hminus (by decide)
      exact (agrees_atom ts hbehind hroom).bind fun p hp => .ok hp
    rw [if_neg hminus, if_neg hminus]
    by_cases hplus : t.is .plus = true
    · rw [if_pos hplus, if_pos hplus]
      have hbehind : Orderly limit depth ts := hts.behind_symbol hplus (by decide)
      exact (agrees_atom ts hbehind hroom).bind fun p hp => .ok hp
    rw [if_neg hplus, if_neg hplus]
    exact agrees_atom (t :: ts) hts hroom
termination_by ts => (ts.length, 3)

theorem agrees_atom : (ts : List Token) → {frames depth : Nat} → Orderly limit depth ts →
    3 * (limit - depth) ≤ frames →
    Agrees (fun p => Orderly limit depth p.2.1) (atomWithin b finish frames ts) (atom b finish ts)
  | [], frames, depth, hts, hroom => by
    rw [atomWithin, atom]
    exact .failed _
  | t :: ts, frames, depth, hts, hroom => by
    rw [atomWithin.eq_def, atom.eq_def]
    dsimp only
    cases hk : t.kind with
    | number x => exact .ok ⟨hts.fits.behind (by simp [hk]) (by simp [hk]), hts.adjoining.2⟩
    | identifier name =>
      have hbehind : Orderly limit depth ts := hts.behind_identifier hk
      cases ts with
      | nil => exact (Agrees.of_run fun _ _ => trivial).bind fun x _ => .ok hbehind
      | cons dot ts =>
        dsimp only
        by_cases hmath : (t.isMath && dot.is .dot) = true
        · rw [if_pos hmath, if_pos hmath]
          have hdot : dot.is .dot = true := (Bool.and_eq_true_iff.mp hmath).2
          have hmember : Orderly limit depth ts := hbehind.behind_symbol hdot (by decide)
          exact (agrees_member ts hmember (hbehind.behind_dot hdot) hroom).bind fun p hp => .ok hp
        · rw [if_neg hmath, if_neg hmath]
          exact (Agrees.of_run fun _ _ => trivial).bind fun x _ => .ok hbehind
    | symbol s =>
      cases s with
      | openParen =>
        obtain ⟨hdepth, hinner⟩ := hts.behind_open hk
        have hroom' : 3 * (limit - (depth + 1)) + 3 ≤ frames + 0 := by omega
        refine (agrees_climb ts hinner (Nat.zero_le _) hroom').bind fun ⟨x, rest, h⟩ hrest => ?_
        have hclose := Agrees.of_run fun left (h : close finish rest = .ok left) =>
          hrest.behind_close h
        exact hclose.bind fun left hleft => .ok hleft
      | _ => exact .failed _
termination_by ts => (ts.length, 2)

theorem agrees_member : (ts : List Token) → {frames depth : Nat} → Orderly limit depth ts →
    (∀ name ∈ ts.head?, ∃ n, name.kind = .identifier n) → 3 * (limit - depth) ≤ frames →
    Agrees (fun p => Orderly limit depth p.2.1) (memberWithin b finish frames ts)
      (member b finish ts)
  | [], frames, depth, hts, hname, hroom => by
    rw [memberWithin, member]
    exact .failed _
  | name :: ts, frames, depth, hts, hname, hroom => by
    obtain ⟨n, hk⟩ := hname name rfl
    have hbehind : Orderly limit depth ts := hts.behind_identifier hk
    rw [memberWithin.eq_def, member.eq_def]
    dsimp only
    cases ts with
    | nil => exact (Agrees.of_run fun _ _ => trivial).bind fun x _ => .ok hbehind
    | cons opening ts =>
      dsimp only
      by_cases hopen : opening.is .openParen = true
      · rw [if_pos hopen, if_pos hopen]
        obtain ⟨hdepth, hinner⟩ := hbehind.behind_open (is_iff.mp hopen)
        have hroom' : 3 * (limit - (depth + 1)) + 3 ≤ frames := by omega
        refine (Agrees.of_run fun _ _ => trivial).bind fun f _ => ?_
        exact (agrees_arguments ts hinner hroom').bind fun p hp => .ok hp
      · rw [if_neg hopen, if_neg hopen]
        exact (Agrees.of_run fun _ _ => trivial).bind fun x _ => .ok hbehind
termination_by ts => (ts.length, 0)

theorem agrees_arguments : (ts : List Token) → {frames depth : Nat} →
    Orderly limit (depth + 1) ts → 3 * (limit - (depth + 1)) + 3 ≤ frames →
    Agrees (fun p => Orderly limit depth p.2.1) (argumentsWithin b finish frames ts)
      (arguments b finish ts)
  | [], frames, depth, hts, hroom => by
    rw [argumentsWithin, arguments]
    exact agrees_argumentsFrom [] hts hroom
  | t :: ts, frames, depth, hts, hroom => by
    rw [argumentsWithin, arguments]
    by_cases hclose : t.is .closeParen = true
    · rw [if_pos hclose, if_pos hclose]
      exact .ok ⟨hts.fits.behind_close (is_iff.mp hclose), hts.adjoining.2⟩
    · rw [if_neg hclose, if_neg hclose]
      exact agrees_argumentsFrom (t :: ts) hts hroom
termination_by ts => (ts.length, 6)

theorem agrees_argumentsFrom : (ts : List Token) → {frames depth : Nat} →
    Orderly limit (depth + 1) ts → 3 * (limit - (depth + 1)) + 3 ≤ frames →
    Agrees (fun p => Orderly limit depth p.2.1) (argumentsFromWithin b finish frames ts)
      (argumentsFrom b finish ts)
  | ts, frames, depth, hts, hroom => by
    rw [argumentsFromWithin, argumentsFrom]
    refine (agrees_climb ts hts (Nat.zero_le _) hroom).bind fun ⟨x, rest, h⟩ hrest => ?_
    cases rest with
    | nil => exact .failed _
    | cons t rest =>
      dsimp only
      by_cases hcomma : t.is .comma = true
      · rw [if_pos hcomma, if_pos hcomma]
        have hbehind : Orderly limit (depth + 1) rest := hrest.behind_symbol hcomma (by decide)
        have hlt : rest.length < ts.length := Shorter.lt_of_cons h
        exact (agrees_argumentsFrom rest hbehind hroom).bind fun p hp => .ok hp
      · rw [if_neg hcomma, if_neg hcomma]
        have hclose := Agrees.of_run fun left (h : close finish (t :: rest) = .ok left) =>
          hrest.behind_close h
        exact hclose.bind fun left hleft => .ok hleft
termination_by ts => (ts.length, 5)

end

theorem runWithin_eq {frames : Nat} {ts : List Token} (hts : Orderly limit 0 ts)
    (hframes : 3 * (limit + 1) ≤ frames) : runWithin frames b ts = unbounded (run b ts) := by
  have hroom : 3 * (limit - 0) + 3 ≤ frames + 0 := by omega
  have hclimb : Agrees (fun p => Orderly limit 0 p.2.1)
      (climbWithin b (Token.finish ts) frames 0 ts) (climb b (Token.finish ts) 0 ts) :=
    agrees_climb ts hts (Nat.zero_le _) hroom
  have hrun : Agrees (fun _ => True) (runWithin frames b ts) (run b ts) := by
    unfold runWithin run
    refine hclimb.bind fun ⟨x, rest, h⟩ _ => ?_
    cases rest with
    | nil => exact .ok trivial
    | cons t rest => exact .failed _
  exact hrun.eq_unbounded

end agrees

section exceeded
variable {b : Bindings} {finish frames : Nat} {ts : List Token}

private theorem climbWithin_operand {t operator : Token} {x : Float} {op : BinaryOp} {min : Nat}
    (hk : t.kind = .number x) (hop : BinaryOp.ofKind? operator.kind = some op)
    (hmin : min ≤ op.precedence)
    (h : climbWithin b finish frames (op.precedence + 1) ts = .error .exceeded) :
    climbWithin b finish (frames + 1) min (t :: operator :: ts) = .error .exceeded := by
  have hminus : t.is .minus = false := is_eq_false_iff.mpr (by simp [hk])
  have hplus : t.is .plus = false := is_eq_false_iff.mpr (by simp [hk])
  have hterm : termWithin b finish frames (t :: operator :: ts) =
      .ok (x, .tail t (operator :: ts)) := by
    rw [termWithin, if_neg (Bool.eq_false_iff.mp hminus), if_neg (Bool.eq_false_iff.mp hplus),
      atomWithin.eq_def]
    dsimp only
    rw [hk]
  have hloop : climbFromWithin b finish frames min x (operator :: ts) = .error .exceeded := by
    rw [climbFromWithin, hop]
    dsimp only
    rw [if_neg (Nat.not_lt.mpr hmin), h]
    rfl
  rw [climbWithin, hterm]
  show climbFromWithin b finish frames min x (operator :: ts) >>= _ = _
  rw [hloop]
  rfl

private theorem climbWithin_open {opening : Token} {min : Nat}
    (hk : opening.kind = .symbol .openParen)
    (h : climbWithin b finish frames 0 ts = .error .exceeded) :
    climbWithin b finish (frames + 1) min (opening :: ts) = .error .exceeded := by
  have hminus : opening.is .minus = false := is_eq_false_iff.mpr (by simp [hk])
  have hplus : opening.is .plus = false := is_eq_false_iff.mpr (by simp [hk])
  rw [climbWithin, termWithin, if_neg (Bool.eq_false_iff.mp hminus),
    if_neg (Bool.eq_false_iff.mp hplus), atomWithin.eq_def]
  dsimp only
  rw [hk]
  dsimp only
  rw [h]
  rfl

namespace Nested

def one : Token := ⟨.number 1, "1", ⟨0, 1⟩⟩

def plus : Token := ⟨.symbol .plus, "+", ⟨0, 1⟩⟩

def star : Token := ⟨.symbol .star, "*", ⟨0, 1⟩⟩

def opening : Token := ⟨.symbol .openParen, "(", ⟨0, 1⟩⟩

def close : Token := ⟨.symbol .closeParen, ")", ⟨0, 1⟩⟩

/-- `1+1*(1+1*(… 1))` with `depth` parentheses, and what follows. -/
def sum : Nat → List Token → List Token
  | 0, rest => one :: plus :: one :: star :: one :: rest
  | depth + 1, rest => one :: plus :: one :: star :: opening :: sum depth (close :: rest)

theorem fits_sum {limit outer depth : Nat} {rest : List Token} (h : outer + depth ≤ limit)
    (hrest : Recognizer.Fits limit outer rest) : Recognizer.Fits limit outer (sum depth rest) := by
  induction depth generalizing outer rest with
  | zero => exact hrest
  | succ depth ih =>
    have hinner : Recognizer.Fits limit (outer + 1) (sum depth (close :: rest)) := by
      apply ih
      · omega
      · exact hrest
    have hroom : ¬ limit < outer + 1 := by omega
    exact (if_neg hroom).trans hinner

theorem exists_derives_sum (depth : Nat) (rest : List Token) :
    ∃ ks, (sum depth rest).map (·.kind) = ks ++ rest.map (·.kind) ∧ Grammar.Derives .expr ks := by
  have hsum {ks : List TokenKind} (h : Grammar.Derives .atom ks) :
      Grammar.Derives .expr ([one.kind] ++ plus.kind :: ([one.kind] ++ star.kind :: (ks ++ []))) :=
    .expr (.unsigned (.number 1)) (.operand (by decide) (.unsigned (.number 1))
      (.operand (by decide) (.unsigned h) .noOperand))
  induction depth generalizing rest with
  | zero => exact ⟨_, rfl, hsum (.number 1)⟩
  | succ depth ih =>
    obtain ⟨ks, hks, hderives⟩ := ih (close :: rest)
    refine ⟨_, ?_, hsum (.group hderives)⟩
    rw [sum]
    simp only [List.map_cons, hks, List.append_nil, List.cons_append, List.nil_append,
      List.append_assoc]
    rfl

end Nested

private theorem climbWithin_zero (min : Nat) :
    climbWithin b finish 0 min ts = .error .exceeded := by
  rw [climbWithin]

private theorem climbWithin_product (h : ∀ left, frames = left + 2 →
      climbWithin b finish left 2 ts = .error .exceeded) :
    climbWithin b finish frames 0 (Nested.one :: Nested.plus :: Nested.one :: Nested.star :: ts) =
      .error .exceeded := by
  cases frames with
  | zero => exact climbWithin_zero 0
  | succ frames =>
    have hadd : BinaryOp.ofKind? Nested.plus.kind = some .add := rfl
    refine climbWithin_operand rfl hadd (Nat.le_refl _) ?_
    cases frames with
    | zero => exact climbWithin_zero 1
    | succ frames =>
      have hmul : BinaryOp.ofKind? Nested.star.kind = some .mul := rfl
      exact climbWithin_operand rfl hmul (Nat.le_refl _) (h frames rfl)

theorem climbWithin_exceeded {depth : Nat} (h : frames < 3 * (depth + 1)) :
    climbWithin b finish frames 0 (Nested.sum depth ts) = .error .exceeded := by
  induction depth generalizing frames ts with
  | zero =>
    refine climbWithin_product fun left hleft => ?_
    obtain rfl : left = 0 := by omega
    exact climbWithin_zero 2
  | succ depth ih =>
    refine climbWithin_product fun left hleft => ?_
    cases left with
    | zero => exact climbWithin_zero 2
    | succ left =>
      apply climbWithin_open rfl
      apply ih
      omega

/-- There are accepted expressions that need all frames of the evaluation. -/
theorem exists_runWithin_exceeded (limits : Limits)
    (h : frames < 3 * (limits.effectiveDepth + 1)) :
    ∃ ts e, Expression.ofTokens? limits ts = .ok e ∧
      ∀ b, runWithin frames b e.tokens = .error .exceeded := by
  let ts := Nested.sum limits.effectiveDepth []
  obtain ⟨ks, hks, hderives⟩ := Nested.exists_derives_sum limits.effectiveDepth []
  rw [List.map_nil, List.append_nil] at hks
  have hsentence : Recognizer.sentence ts = .ok () :=
    Recognizer.sentence_eq_ok_iff_derives.mpr (hks ▸ hderives)
  have hbalance : Recognizer.balance limits.effectiveDepth 0 ts = .ok () :=
    Nested.fits_sum (Nat.le_of_eq (Nat.zero_add _)) rfl
  obtain ⟨e, he⟩ := Expression.exists_ofTokens?_iff.mpr ⟨hbalance, hsentence⟩
  refine ⟨ts, e, he, fun b => ?_⟩
  have hclimb : climbWithin b (Token.finish ts) frames 0 ts = .error .exceeded :=
    climbWithin_exceeded h
  rw [Expression.tokens_of_ofTokens? he, runWithin, hclimb]
  rfl

end exceeded

end Interpreter

/-- With `depth` the depth that is enforced, the check has at most `depth + 1` calls of `expr` active
and `depth` parentheses open at a time, and the evaluation of what it accepts at most
`3 * (depth + 1)` calls of `climb`: bounded so, they end as they do without bounds. With less room
for any of them, some sequence uses it up. -/
theorem Expression.stacks_bounded (limits : Limits) :
    let depth := min limits.maxDepth 512
    (∀ ts, Recognizer.checkWithin depth (depth + 1) limits ts =
        unbounded ((ofTokens? limits ts).map (·.tokens))) ∧
      (∀ ts e, ofTokens? limits ts = .ok e → ∀ b,
        Interpreter.runWithin (3 * (depth + 1)) b e.tokens = unbounded (e.value b)) ∧
      (∀ entries frames, entries < depth ∨ frames < depth + 1 →
        ∃ ts, Recognizer.checkWithin entries frames limits ts = .error .exceeded) ∧
      ∀ frames, frames < 3 * (depth + 1) → ∃ ts e, ofTokens? limits ts = .ok e ∧
        ∀ b, Interpreter.runWithin frames b e.tokens = .error .exceeded := by
  intro depth
  refine ⟨Recognizer.checkWithin_eq limits, fun ts e he b => ?_, fun entries frames h => ?_,
    fun frames h => Interpreter.exists_runWithin_exceeded limits h⟩
  · obtain ⟨hbalance, hsentence⟩ := exists_ofTokens?_iff.mp ⟨e, he⟩
    have hderives := Recognizer.sentence_eq_ok_iff_derives.mp hsentence
    have hts : Interpreter.Orderly depth 0 ts := ⟨hbalance, hderives.joined.adjoining⟩
    rw [tokens_of_ofTokens? he, Expression.value, tokens_of_ofTokens? he]
    exact Interpreter.runWithin_eq hts (Nat.le_refl _)
  · exact Recognizer.exists_checkWithin_exceeded limits h

/-- The tokens of `1+(1*Math.max(1,1))`. -/
def Interpreter.Nested.call : List Token :=
  [one, plus, opening, one, star, ⟨.identifier "Math", "Math", ⟨0, 4⟩⟩, ⟨.symbol .dot, ".", ⟨0, 1⟩⟩,
    ⟨.identifier "max", "max", ⟨0, 3⟩⟩, opening, one, ⟨.symbol .comma, ",", ⟨0, 1⟩⟩, one, close,
    close]

/-- A call in a group, with just the depth that it needs. -/
theorem Expression.stacks_bounded_call :
    ∃ e, ofTokens? { maxDepth := 2 } Interpreter.Nested.call = .ok e ∧
      Recognizer.checkWithin 2 3 { maxDepth := 2 } Interpreter.Nested.call = .ok e.tokens ∧
      ∀ b, Interpreter.runWithin 9 b e.tokens = unbounded (e.value b) := by
  have hone : Grammar.Derives .expr ([.number 1] ++ []) :=
    .expr (.unsigned (.number 1)) .noOperand
  have hcall := Grammar.Derives.called "max" (.moreArguments hone (.argument hone))
  have hstar : Symbol.star ∈ Grammar.binaryOperators := by decide
  have hgroup := Grammar.Derives.expr (.unsigned (.number 1))
    (.operand hstar (.unsigned (.call hcall)) .noOperand)
  have hplus : Symbol.plus ∈ Grammar.binaryOperators := by decide
  have hderives := Grammar.Derives.expr (.unsigned (.number 1))
    (.operand hplus (.unsigned (.group hgroup)) .noOperand)
  have hsentence : Recognizer.sentence Interpreter.Nested.call = .ok () :=
    Recognizer.sentence_eq_ok_iff_derives.mpr hderives
  obtain ⟨e, he⟩ : ∃ e, ofTokens? { maxDepth := 2 } Interpreter.Nested.call = .ok e :=
    exists_ofTokens?_iff.mpr ⟨rfl, hsentence⟩
  obtain ⟨hcheck, hrun, -⟩ := stacks_bounded { maxDepth := 2 }
  refine ⟨e, he, (hcheck _).trans ?_, hrun _ e he⟩
  rw [he]
  rfl

end Reckon
