import Reckon.Proofs.Acceptance

/-! Fronts of sentences, and what a reading depends on: the tokens that it takes and the first one
behind them. -/
namespace Reckon
open Grammar Token

namespace Grammar

/-- A phrase of the rule starts so. The call behind its dot starts with a name. -/
def Opens (rule : Rule) (ks : List TokenKind) : Prop :=
  ∃ ls, Derives rule (rule.lead ++ (ks ++ ls))

def Viable (ks : List TokenKind) : Prop := Opens .expr ks

theorem Viable.of_prefix {ks ls : List TokenKind} (h : Viable ls) (hp : ks <+: ls) : Viable ks := by
  obtain ⟨rest, hrest⟩ := h
  obtain ⟨mid, rfl⟩ := hp
  exact ⟨mid ++ rest, by rwa [List.append_assoc] at hrest⟩

theorem opens_nil (rule : Rule) : Opens rule [] := by
  have hatom : Derives .atom [.number 0] := .number 0
  have hexpr : Derives .expr [.number 0] := .expr (.unsigned hatom) .noOperand
  cases rule with
  | expr => exact ⟨_, hexpr⟩
  | operands => exact ⟨[], .noOperand⟩
  | term => exact ⟨_, .unsigned hatom⟩
  | atom => exact ⟨_, hatom⟩
  | call => exact ⟨[.identifier "E"], .bare "E"⟩
  | arguments => exact ⟨_, .argument hexpr⟩

end Grammar

/-- The last token of an operand: a number, a name or a closing parenthesis. -/
def TokenKind.endsOperand : TokenKind → Bool
  | .number _ | .identifier _ => true
  | .symbol s => s == .closeParen

/-- Only a chain of operands may be empty; whatever else is derived ends as an operand does. -/
theorem Grammar.Derives.ends_operand {rule : Rule} {ks : List TokenKind} (h : Derives rule ks) :
    rule = .operands ∧ ks = [] ∨ ∃ k, [k] <:+ ks ∧ k.endsOperand = true := by
  induction h with
  | expr _ _ hterm hops =>
    obtain ⟨-, rfl⟩ | ⟨k, hk, hend⟩ := hops
    · obtain ⟨⟨⟩, -⟩ | ⟨k, hk, hend⟩ := hterm
      exact .inr ⟨k, by rwa [List.append_nil], hend⟩
    · exact .inr ⟨k, hk.trans (List.suffix_append ..), hend⟩
  | noOperand => exact .inl ⟨rfl, rfl⟩
  | operand _ _ _ hterm hops =>
    obtain ⟨-, rfl⟩ | ⟨k, hk, hend⟩ := hops
    · obtain ⟨⟨⟩, -⟩ | ⟨k, hk, hend⟩ := hterm
      exact .inr ⟨k, by rw [List.append_nil]; exact hk.trans (List.suffix_cons ..), hend⟩
    · exact .inr ⟨k, (hk.trans (List.suffix_append ..)).trans (List.suffix_cons ..), hend⟩
  | unsigned _ ih | call _ ih | argument _ ih =>
    obtain ⟨⟨⟩, -⟩ | ⟨k, hk, hend⟩ := ih
    exact .inr ⟨k, hk, hend⟩
  | signed _ _ ih =>
    obtain ⟨⟨⟩, -⟩ | ⟨k, hk, hend⟩ := ih
    exact .inr ⟨k, hk.trans (List.suffix_cons ..), hend⟩
  | number value => exact .inr ⟨_, List.suffix_rfl, rfl⟩
  | identifier name => exact .inr ⟨_, List.suffix_rfl, rfl⟩
  | @group ks _ _ => exact .inr ⟨_, List.suffix_append (.symbol .openParen :: ks) _, rfl⟩
  | bare name => exact .inr ⟨_, List.suffix_append [_, _] _, rfl⟩
  | noArgument name => exact .inr ⟨_, List.suffix_append [_, _, _, _] _, rfl⟩
  | @called name ks _ _ => exact .inr ⟨_, List.suffix_append (_ :: _ :: _ :: _ :: ks) _, rfl⟩
  | moreArguments _ _ _ ih =>
    obtain ⟨⟨⟩, -⟩ | ⟨k, hk, hend⟩ := ih
    exact .inr ⟨k, (hk.trans (List.suffix_cons ..)).trans (List.suffix_append ..), hend⟩

def TokenKind.isParen : TokenKind → Bool
  | .symbol .openParen | .symbol .closeParen => true
  | _ => false

theorem isParen_operator {op : Symbol} (hmem : op ∈ binaryOperators ++ signs) :
    (TokenKind.symbol op).isParen = false := by
  revert hmem
  cases op <;> decide

namespace Token

def openStep (opened : List Span) (t : Token) : List Span :=
  match t.kind with
  | .symbol .openParen => t.span :: opened
  | .symbol .closeParen => opened.tail
  | _ => opened

/-- The spans of the parentheses that are open behind a sequence, innermost first. -/
def openAfter (opened : List Span) (ts : List Token) : List Span := ts.foldl openStep opened

def unclosed (ts : List Token) : List Span := openAfter [] ts

@[simp] theorem openAfter_nil (opened : List Span) : openAfter opened [] = opened := rfl

theorem openAfter_cons (opened : List Span) (t : Token) (ts : List Token) :
    openAfter opened (t :: ts) = openAfter (openStep opened t) ts := rfl

theorem openAfter_append (opened : List Span) (ts us : List Token) :
    openAfter opened (ts ++ us) = openAfter (openAfter opened ts) us := List.foldl_append

theorem openStep_eq {t : Token} {k : TokenKind} (opened : List Span) (hk : t.kind = k)
    (h : k.isParen = false) : openStep opened t = opened := by
  subst hk
  unfold openStep
  split
  · next hk =>
    rw [hk] at h
    cases h
  · next hk =>
    rw [hk] at h
    cases h
  · rfl

theorem openStep_open {t : Token} (opened : List Span) (hk : t.kind = .symbol .openParen) :
    openStep opened t = t.span :: opened := by
  simp [openStep, hk]

theorem openStep_close {t : Token} (opened : List Span) (hk : t.kind = .symbol .closeParen) :
    openStep opened t = opened.tail := by
  simp [openStep, hk]

def last (previous : Option Token) (ts : List Token) : Option Token := ts.getLast?.or previous

theorem last_append (previous : Option Token) (ts us : List Token) :
    last previous (ts ++ us) = last (last previous ts) us := by
  simp [last, List.getLast?_append, Option.or_assoc]

@[simp] theorem last_append_singleton (previous : Option Token) (ts : List Token) (t : Token) :
    last previous (ts ++ [t]) = some t := by
  simp [last]

end Token

theorem Token.Avoids.of_head? {ss : List Symbol} {ts us : List Token} (h : Avoids ss ts)
    (hhead : us.head? = ts.head?) : Avoids ss us := by
  unfold Avoids
  rwa [hhead]

theorem Token.avoids_of_not_is {t : Token} {s : Symbol} (h : ¬ t.is s = true) (ts : List Token) :
    Avoids [s] (t :: ts) := by
  refine avoids_cons.mpr fun s' hs' hk => h ?_
  rw [List.mem_singleton.mp hs'] at hk
  exact is_iff.mpr hk

namespace Recognizer

theorem head?_append_congr {us rest rest' : List Token} (h : rest'.head? = rest.head?) :
    (us ++ rest').head? = (us ++ rest).head? := by
  rw [List.head?_append, List.head?_append, h]

/-- What a reading takes: it closes the parentheses that it opens, and it is the same before
anything that starts with the same token. -/
structure Takes (rule : Rule) (used rest : List Token) : Prop where
  open_eq : ∀ opened, openAfter opened used = opened
  reads : ∀ rest' : List Token, rest'.head? = rest.head? → Reads rule (used ++ rest') rest'

theorem openAfter_single {t : Token} {k : TokenKind} (opened : List Span) (hk : t.kind = k)
    (h : k.isParen = false) (ts : List Token) :
    openAfter opened (t :: ts) = openAfter opened ts := by
  rw [openAfter_cons, openStep_eq opened hk h]

theorem openAfter_enclosed {t close : Token} {used : List Token} (opened : List Span)
    (hk : t.kind = .symbol .openParen) (hclose : close.kind = .symbol .closeParen)
    (h : ∀ opened, openAfter opened used = opened) :
    openAfter opened (t :: (used ++ [close])) = opened := by
  rw [openAfter_cons, openStep_open opened hk, openAfter_append, h, openAfter_cons,
    openStep_close _ hclose]
  rfl

theorem Reads.exists_takes {rule : Rule} {ts rest : List Token} (h : Reads rule ts rest) :
    ∃ used, ts = used ++ rest ∧ Takes rule used rest := by
  induction h with
  | expr _ _ hterm hops =>
    obtain ⟨us, rfl, hu⟩ := hterm
    obtain ⟨vs, rfl, hv⟩ := hops
    refine ⟨us ++ vs, (List.append_assoc ..).symm, fun opened => ?_, fun rest' hhead => ?_⟩
    · rw [openAfter_append, hu.open_eq, hv.open_eq]
    · rw [List.append_assoc]
      exact .expr (hu.reads _ (head?_append_congr hhead)) (hv.reads _ hhead)
  | stop hstop => exact ⟨[], rfl, fun _ => rfl, fun rest' hhead => .stop (hstop.of_head? hhead)⟩
  | @operand t op ts mid rest hmem hk _ _ hterm hops =>
    obtain ⟨us, rfl, hu⟩ := hterm
    obtain ⟨vs, rfl, hv⟩ := hops
    refine ⟨t :: (us ++ vs), by simp, fun opened => ?_, fun rest' hhead => ?_⟩
    · rw [openAfter_single opened hk (isParen_operator (List.mem_append_left _ hmem)),
        openAfter_append, hu.open_eq, hv.open_eq]
    · rw [List.cons_append, List.append_assoc]
      exact .operand hmem hk (hu.reads _ (head?_append_congr hhead)) (hv.reads _ hhead)
  | unsigned _ hatom =>
    obtain ⟨us, rfl, hu⟩ := hatom
    exact ⟨us, rfl, hu.open_eq, fun rest' hhead => .unsigned (hu.reads _ hhead)⟩
  | @signed t sign ts rest hmem hk _ hatom =>
    obtain ⟨us, rfl, hu⟩ := hatom
    refine ⟨t :: us, rfl, fun opened => ?_, fun rest' hhead => .signed hmem hk (hu.reads _ hhead)⟩
    rw [openAfter_single opened hk (isParen_operator (List.mem_append_right _ hmem)), hu.open_eq]
  | @number t value ts hk =>
    exact ⟨[t], rfl, fun opened => openAfter_single opened hk rfl [], fun _ _ => .number hk⟩
  | @identifier t name ts hk hdot =>
    refine ⟨[t], rfl, fun opened => openAfter_single opened hk rfl [], fun rest' hhead => ?_⟩
    exact .identifier hk fun hname => (hdot hname).of_head? hhead
  | @call t dot ts rest hk hdot _ hcall =>
    obtain ⟨us, rfl, hu⟩ := hcall
    refine ⟨t :: dot :: us, rfl, fun opened => ?_, fun rest' hhead => ?_⟩
    · rw [openAfter_single opened hk rfl, openAfter_single opened hdot rfl, hu.open_eq]
    · exact .call hk hdot (hu.reads _ hhead)
  | @group t ts close rest hk _ hclose hexpr =>
    obtain ⟨us, rfl, hu⟩ := hexpr
    refine ⟨t :: (us ++ [close]), by simp, fun opened => ?_, fun rest' hhead => ?_⟩
    · exact openAfter_enclosed opened hk hclose hu.open_eq
    · rw [List.cons_append, List.append_assoc]
      exact .group hk (hu.reads (close :: rest') rfl) hclose
  | @bare t name ts hk hopen =>
    refine ⟨[t], rfl, fun opened => openAfter_single opened hk rfl [], fun rest' hhead => ?_⟩
    exact .bare hk (hopen.of_head? hhead)
  | @noArgument t name opening close ts hk hopen hclose =>
    refine ⟨[t, opening, close], rfl, fun opened => ?_, fun _ _ => .noArgument hk hopen hclose⟩
    rw [openAfter_single opened hk rfl]
    exact @openAfter_enclosed opening close [] opened hopen hclose fun _ => rfl
  | @called t name opening ts close rest hk hopen _ hclose hargs =>
    obtain ⟨us, rfl, hu⟩ := hargs
    refine ⟨t :: opening :: (us ++ [close]), by simp, fun opened => ?_, fun rest' hhead => ?_⟩
    · rw [openAfter_single opened hk rfl]
      exact openAfter_enclosed opened hopen hclose hu.open_eq
    · rw [List.cons_append, List.cons_append, List.append_assoc]
      exact .called hk hopen (hu.reads (close :: rest') rfl) hclose
  | argument _ hexpr =>
    obtain ⟨us, rfl, hu⟩ := hexpr
    exact ⟨us, rfl, hu.open_eq, fun rest' hhead => .argument (hu.reads _ hhead)⟩
  | @moreArguments ts comma mid rest _ hcomma _ hexpr hargs =>
    obtain ⟨us, rfl, hu⟩ := hexpr
    obtain ⟨vs, rfl, hv⟩ := hargs
    refine ⟨us ++ comma :: vs, by simp, fun opened => ?_, fun rest' hhead => ?_⟩
    · rw [openAfter_append, hu.open_eq, openAfter_single opened hcomma rfl, hv.open_eq]
    · rw [List.append_assoc]
      exact .moreArguments (hu.reads (comma :: (vs ++ rest')) rfl) hcomma (hv.reads _ hhead)

theorem Takes.derives {rule : Rule} {used rest : List Token} (h : Takes rule used rest) :
    Derives rule (rule.lead ++ used.map (·.kind)) := by
  obtain ⟨used', heq, hd⟩ := (h.reads rest rfl).exists_derives
  rwa [List.append_cancel_right heq]

theorem Takes.exists_last {used rest : List Token} (h : Takes .expr used rest) :
    ∃ init p, used = init ++ [p] ∧ p.kind.endsOperand = true := by
  obtain ⟨⟨⟩, -⟩ | ⟨k, ⟨ks, hks⟩, hend⟩ := h.derives.ends_operand
  obtain ⟨init, us, rfl, -, hus⟩ := List.map_eq_append_iff.mp hks.symm
  obtain ⟨p, rfl, hp⟩ := List.map_eq_singleton_iff.mp hus
  exact ⟨init, p, rfl, hp ▸ hend⟩

/-- What is left behind a phrase is told by the phrase. -/
theorem Reads.unique {rule : Rule} {ts rest rest' : List Token} (h : Reads rule ts rest)
    (h' : Reads rule ts rest') (hrule : rule ≠ .arguments) : rest = rest' := by
  have ha := h.accepts
  have ha' := h'.accepts
  cases rule with
  | arguments => exact absurd rfl hrule
  | expr | operands | call => exact Except.ok.inj ((ha 0 []).symm.trans (ha' 0 []))
  | term | atom => exact Except.ok.inj ((ha 0 [] none).symm.trans (ha' 0 [] none))

end Recognizer

end Reckon
