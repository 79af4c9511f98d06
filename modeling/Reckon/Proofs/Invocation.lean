import Mathlib.Control.Monad.Basic
import Reckon.CommandLine
import Reckon.Proofs.ResultText

/-! What the command prints is what the report of the same texts says, although the command decodes,
evaluates and prints on its own. -/
namespace Reckon.CommandLine

namespace Options
variable {o p : Options} {args : List String}

private theorem eq_of_complete (h : o.complete = .ok p) : o = p := by
  unfold complete at h
  split at h
  · cases h
  · split at h
    · cases h
    · exact Except.ok.inj h

private theorem exists_complete_of_setFiles (h : o.setFiles args = .ok p) :
    ∃ q : Options, q.complete = .ok p := by
  induction args generalizing o with
  | nil => exact ⟨o, h⟩
  | cons arg args ih =>
    obtain ⟨q, -, hrest⟩ := exists_of_bind_eq_ok h
    exact ih hrest

private theorem exists_complete_of_setAll (h : o.setAll args = .ok p) :
    ∃ q : Options, q.complete = .ok p := by
  fun_induction setAll o args
  case case1 q => exact ⟨q, h⟩
  case case2 => exact exists_complete_of_setFiles h
  case case3 ih | case5 ih | case7 ih | case9 ih | case13 ih =>
    obtain ⟨q, -, hrest⟩ := exists_of_bind_eq_ok h
    exact ih q hrest
  case case4 | case6 | case8 | case10 | case11 | case12 => cases h

/-- However the reading of the arguments ends, it ends with a judgement of the whole. -/
theorem complete_of_ofArguments (h : ofArguments args = .ok o) : o.complete = .ok o := by
  obtain ⟨q, hq⟩ := exists_complete_of_setAll h
  have hself : q = o := eq_of_complete hq
  rw [hself] at hq
  exact hq

/-- An invocation that does not ask for the table has a file. -/
theorem exists_file (h : ofArguments args = .ok o) (htable : o.mathTable = false) :
    ∃ path, o.file = some path := by
  have hcomplete := complete_of_ofArguments h
  cases hfile : o.file with
  | some path => exact ⟨path, rfl⟩
  | none =>
    rw [complete, hfile, htable] at hcomplete
    split at hcomplete <;> cases hcomplete

end Options

/-- The text of the variables: of a file, of the arguments, or none. -/
inductive ReadsVars (inputs : Inputs) (stdinRead : Bool) (o : Options) : String → Prop where
  | file {path text} : o.varsFile = some path → readText inputs stdinRead path = .ok text →
      ReadsVars inputs stdinRead o text
  | argument {text} : o.varsFile = none → o.vars = some text → ReadsVars inputs stdinRead o text
  | absent : o.varsFile = none → o.vars = none → ReadsVars inputs stdinRead o ""

inductive ReadsConfig (inputs : Inputs) (o : Options) : Limits → Prop where
  | file {path text limits} : o.config = some path → inputs.file path = .ok text →
      Limits.ofToml? text.toList = some limits → ReadsConfig inputs o limits
  | default : o.config = none → ReadsConfig inputs o {}

/-- An invocation comes by a source text, a text of variables and limits, of which the depth is that
of the arguments if they name one. -/
inductive Gathers (inputs : Inputs) (o : Options) : String → String → Limits → Prop where
  | mk {path source vars limits} : o.mathTable = false → o.file = some path →
      readText inputs false path = .ok source → ReadsVars inputs (isStdin path) o vars →
      ReadsConfig inputs o limits →
      Gathers inputs o source vars { limits with maxDepth := o.maxDepth.getD limits.maxDepth }

def Trouble.OfFile : Trouble → Prop
  | .unreadable .. | .invalidConfig _ => True
  | .bindings _ => False

section readAll
variable {inputs : Inputs} {o : Options} {stdinRead : Bool}

private theorem ofFile_of_readText {path : String} {t : Trouble}
    (h : readText inputs stdinRead path = .error t) : t.OfFile := by
  unfold readText at h
  dsimp only at h
  cases htext : (if !isStdin path then inputs.file path
    else if stdinRead then .ok "" else inputs.stdin) with
  | ok text =>
    rw [htext] at h
    cases h
  | error fault =>
    rw [htext] at h
    cases h
    trivial

theorem readLimits_of_readsConfig (explain : String → String) {limits : Limits}
    (h : ReadsConfig inputs o limits) :
    readLimits inputs explain o =
      .ok { limits with maxDepth := o.maxDepth.getD limits.maxDepth } := by
  cases h with
  | @file path text _ hpath htext hlimits =>
    have hread : (inputs.file path).mapError (Trouble.unreadable path) = .ok text := by
      rw [htext]
      rfl
    simp only [readLimits, hpath, hread, bind, Except.bind, hlimits]
    rfl
  | default hpath =>
    rw [readLimits, hpath]
    rfl

theorem readBindings_of_readsVars {vars : String} (h : ReadsVars inputs stdinRead o vars) :
    readBindings inputs stdinRead o = (Bindings.ofOptionalText? vars).mapError .bindings := by
  cases h with
  | file hpath htext =>
    simp only [readBindings, hpath, htext]
    rfl
  | argument hpath htext | absent hpath htext =>
    rw [readBindings, hpath, htext]
    rfl

theorem exists_readsConfig (inputs : Inputs) (explain : String → String) (o : Options) :
    (∃ limits, ReadsConfig inputs o limits) ∨
      ∃ t, readLimits inputs explain o = .error t ∧ t.OfFile := by
  cases hpath : o.config with
  | none => exact .inl ⟨{}, .default hpath⟩
  | some path =>
    cases htext : inputs.file path with
    | error fault =>
      refine .inr ⟨.unreadable path fault, ?_, trivial⟩
      simp only [readLimits, hpath, htext]
      rfl
    | ok text =>
      cases hlimits : Limits.ofToml? text.toList with
      | some limits => exact .inl ⟨limits, .file hpath htext hlimits⟩
      | none =>
        have hread : (inputs.file path).mapError (Trouble.unreadable path) = .ok text := by
          rw [htext]
          rfl
        refine .inr ⟨.invalidConfig ⟨path, explain text⟩, ?_, trivial⟩
        simp only [readLimits, hpath, hread, bind, Except.bind, hlimits]
        rfl

theorem exists_readsVars (inputs : Inputs) (stdinRead : Bool) (o : Options) :
    (∃ vars, ReadsVars inputs stdinRead o vars) ∨
      ∃ t, readBindings inputs stdinRead o = .error t ∧ t.OfFile := by
  cases hpath : o.varsFile with
  | some path =>
    cases htext : readText inputs stdinRead path with
    | ok text => exact .inl ⟨text, .file hpath htext⟩
    | error t =>
      refine .inr ⟨t, ?_, ofFile_of_readText htext⟩
      simp only [readBindings, hpath, htext]
      rfl
  | none =>
    cases htext : o.vars with
    | some text => exact .inl ⟨text, .argument hpath htext⟩
    | none => exact .inl ⟨"", .absent hpath htext⟩

end readAll

structure Outcome.Prints (out : Outcome) (stdout stderr : String) (exitCode : Nat) : Prop where
  stdout : out.stdout = stdout
  stderr : out.stderr = stderr
  exitCode : out.exitCode = exitCode

theorem Outcome.prints (out : Outcome) : out.Prints out.stdout out.stderr out.exitCode :=
  ⟨rfl, rfl, rfl⟩

def Outcome.ofResult (json : Bool) (result : Except Failure Float) : Outcome :=
  if json then .report (.ofOutcome result)
  else
    match result with
    | .ok x => .value x
    | .error f => .failure f

theorem Outcome.ofResult_prints_result {result : Except Failure Float}
    (h : (Report.ofOutcome result).success = true) :
    ∃ text, (Report.ofOutcome result).result = some text ∧
      (ofResult false result).Prints (text ++ "\n") "" 0 := by
  cases result with
  | ok x => exact ⟨Decimal.resultText x, rfl, prints _⟩
  | error f => cases h

theorem Outcome.ofResult_prints_message {result : Except Failure Float}
    (h : (Report.ofOutcome result).success = false) :
    ∃ text, (Report.ofOutcome result).message = some text ∧
      (ofResult false result).Prints "" ("error: " ++ text ++ "\n") 1 := by
  cases result with
  | ok x => cases h
  | error f => exact ⟨f.message, rfl, prints _⟩

section run
variable {inputs : Inputs} {explain : String → String} {o : Options} {args : List String}
  {source vars : String} {limits : Limits}

/-- The outcome by the texts and the limits alone. -/
theorem runOptions_of_gathers (h : Gathers inputs o source vars limits) :
    runOptions inputs explain o =
      match Bindings.ofOptionalText? vars with
      | .error e => .trouble (.bindings e)
      | .ok b => .ofResult o.json (evaluate source b limits) := by
  obtain ⟨htable, hfile, hsource, hvars, hconfig⟩ := h
  have hlimits := readLimits_of_readsConfig explain hconfig
  have hbindings := readBindings_of_readsVars hvars
  unfold runOptions readAll
  simp only [htable, hfile, hsource, hlimits, hbindings, bind, Except.bind]
  cases Bindings.ofOptionalText? vars <;> rfl

/-- An invocation that does not ask for the table comes by its texts, or has trouble with one of its
files. -/
theorem exists_gathers (inputs : Inputs) (explain : String → String)
    (hargs : Options.ofArguments args = .ok o) (htable : o.mathTable = false) :
    (∃ source vars limits, Gathers inputs o source vars limits) ∨
      ∃ t, run inputs args explain = .trouble t ∧ t.OfFile := by
  obtain ⟨path, hfile⟩ := Options.exists_file hargs htable
  have htrouble {t : Trouble} (h : readAll inputs explain o path = .error t) :
      run inputs args explain = .trouble t := by
    simp only [run, hargs, runOptions, htable, hfile, h]
    rfl
  cases hsource : readText inputs false path with
  | error t =>
    refine .inr ⟨t, htrouble ?_, ofFile_of_readText hsource⟩
    simp only [readAll, hsource]
    rfl
  | ok source =>
    rcases exists_readsConfig inputs explain o with ⟨limits, hconfig⟩ | ⟨t, ht, hof⟩
    · rcases exists_readsVars inputs (isStdin path) o with ⟨vars, hvars⟩ | ⟨t, ht, hof⟩
      · exact .inl ⟨source, vars, _, .mk htable hfile hsource hvars hconfig⟩
      · refine .inr ⟨t, htrouble ?_, hof⟩
        have hlimits := readLimits_of_readsConfig explain hconfig
        simp only [readAll, hsource, hlimits, ht]
        rfl
    · refine .inr ⟨t, htrouble ?_, hof⟩
      simp only [readAll, hsource, ht]
      rfl

end run

/-- A text of variables is blank or writes bindings. -/
def Bindable (vars : String) : Prop :=
  Text.isBlankText vars.toList = true ∨ ∃ b, Bindings.ofText? vars = .ok b

theorem bindable_iff {vars : String} :
    Bindable vars ↔ ∃ b, Bindings.ofOptionalText? vars = .ok b := by
  unfold Bindable Bindings.ofOptionalText?
  by_cases hblank : Text.isBlankText vars.toList = true
  · rw [if_pos hblank]
    exact iff_of_true (.inl hblank) ⟨Bindings.empty, rfl⟩
  · rw [if_neg hblank]
    exact or_iff_right hblank

/-- The command prints the report of the texts and the limits that it comes by: in JSON, or its
result, or its message. What does not write bindings is not reported in JSON either. -/
theorem run_prints_ofSource (inputs : Inputs) (explain : String → String) (args : List String)
    (o : Options) (source vars : String) (limits : Limits)
    (hargs : Options.ofArguments args = .ok o) (h : Gathers inputs o source vars limits) :
    let r := Report.ofSource source vars limits
    let out := run inputs args explain
    (Bindable vars →
      (o.json = true → out.Prints (r.toJson ++ "\n") "" (if r.success then 0 else 1)) ∧
      (o.json = false → r.success = true →
        ∃ text, r.result = some text ∧ out.Prints (text ++ "\n") "" 0) ∧
      (o.json = false → r.success = false →
        ∃ text, r.message = some text ∧ out.Prints "" ("error: " ++ text ++ "\n") 1)) ∧
    (¬ Bindable vars →
      ∃ text, r.message = some text ∧ out.Prints "" ("safexpr: " ++ text ++ "\n") 2) := by
  intro r out
  have hout : out = runOptions inputs explain o := by simp only [out, run, hargs]
  rw [runOptions_of_gathers h] at hout
  rw [bindable_iff, hout]
  cases hvars : Bindings.ofOptionalText? vars with
  | error e =>
    have hr : r = .ofBindingsError e := by simp only [r, Report.ofSource, hvars]
    rw [hr]
    constructor
    · rintro ⟨b, hb⟩
      cases hb
    · intro _
      exact ⟨e.message, rfl, Outcome.prints _⟩
  | ok b =>
    have hr : r = .ofOutcome (evaluate source b limits) := by
      simp only [r, Report.ofSource, hvars]
    rw [hr]
    dsimp only
    constructor
    · intro _
      refine ⟨fun hjson => ?_, fun hjson hsuccess => ?_, fun hjson hsuccess => ?_⟩
      · rw [hjson]
        exact Outcome.prints _
      · rw [hjson]
        exact Outcome.ofResult_prints_result hsuccess
      · rw [hjson]
        exact Outcome.ofResult_prints_message hsuccess
    · intro hnone
      exact absurd ⟨b, rfl⟩ hnone

/-- The formula `(n + 1) * 2`. -/
def doubledSum : Formula :=
  .binary .mul (.binary .add (.var ⟨'n', [], rfl, nofun⟩ (by decide))
    (.number ⟨['1'], [], .whole (.nonzero rfl (by decide) nofun), .inl rfl⟩))
    (.number ⟨['2'], [], .whole (.nonzero rfl (by decide) nofun), .inl rfl⟩)

/-- Its text, which is also on the standard input, and a configuration that does not allow its
parentheses. -/
def doubledSumInputs : Inputs where
  stdin := .ok " ( n + 1 ) * 2"
  file
    | "e" => .ok " ( n + 1 ) * 2"
    | "c" => .ok "max_depth = 0"
    | _ => .error .notFound

private theorem mapError_evaluate_doubledSum {limits : Limits} (hdepth : 1 ≤ limits.effectiveDepth)
    (hlength : 32 ≤ limits.maxSourceLength) (b : Bindings) :
    (evaluate " ( n + 1 ) * 2" b limits).mapError (·.cause) = doubledSum.value b := by
  have hspaced : Spaced doubledSum.words " ( n + 1 ) * 2".toList := .blanks doubledSum.words
  have hshort : Text.byteLength " ( n + 1 ) * 2".toList ≤ 32 := by decide
  have hopen : (doubledSum.words.map (·.kind)).count (.symbol .openParen) = 1 := by decide +kernel
  have hnesting : ∀ p, p <+: doubledSum.words.map (·.kind) →
      Grammar.nesting p ≤ limits.effectiveDepth := by
    intro p hp
    have hcount := hp.sublist.count_le (.symbol .openParen)
    rw [Grammar.nesting]
    omega
  obtain ⟨x, hx, hvalue⟩ :=
    Formula.exists_validate hspaced (Nat.le_trans hshort hlength) hnesting
  rw [evaluate, hx]
  exact hvalue b

private theorem ofOptionalText?_two :
    Bindings.ofOptionalText? "\x7b\"n\": 2\x7d" = .ok ⟨[("n", .json (.integer 2))]⟩ := by
  with_unfolding_all rfl

private theorem ofSource_doubledSum {limits : Limits} (hdepth : 1 ≤ limits.effectiveDepth)
    (hlength : 32 ≤ limits.maxSourceLength) :
    Report.ofSource " ( n + 1 ) * 2" "\x7b\"n\": 2\x7d" limits =
      ⟨true, some "6", none, none⟩ := by
  let b : Bindings := ⟨[("n", .json (.integer 2))]⟩
  have hvalue : evaluate " ( n + 1 ) * 2" b limits = .ok 6 := by
    apply eq_ok_of_mapError (f := (·.cause))
    rw [mapError_evaluate_doubledSum hdepth hlength]
    decide +kernel
  have htext : Decimal.resultText 6 = "6" := by decide +kernel
  rw [Report.ofSource, ofOptionalText?_two]
  dsimp only
  rw [hvalue, Report.ofOutcome, htext]

private theorem ofSource_doubledSum_unbound :
    ∃ d, Report.ofSource " ( n + 1 ) * 2" "" =
      ⟨false, none, some "n is not defined", some d⟩ := by
  have h := @mapError_evaluate_doubledSum {} (by decide) (by decide) Bindings.empty
  have hunbound : doubledSum.value Bindings.empty = .error (.undefinedVariable "n") := by
    decide +kernel
  rw [hunbound] at h
  have hvars : Bindings.ofOptionalText? "" = .ok Bindings.empty := rfl
  simp only [Report.ofSource, hvars]
  cases hvalue : evaluate " ( n + 1 ) * 2" Bindings.empty with
  | ok x =>
    rw [hvalue] at h
    cases h
  | error f =>
    rw [hvalue] at h
    have hcause : f.cause = .undefinedVariable "n" := Except.error.inj h
    refine ⟨.ofFailure f, ?_⟩
    rw [Report.ofOutcome, Failure.message, hcause]
    rfl

/-- The depth of the arguments goes before that of the configuration. The other invocations have no
configuration, no variables either, and what is no object. -/
theorem run_prints_ofSource_doubledSum :
    let vars := "\x7b\"n\": 2\x7d"
    (run doubledSumInputs ["--json", "--vars", vars, "--config=c", "--max-depth", "1", "e"]).Prints
      "\x7b\"success\":true,\"result\":\"6\"\x7d\n" "" 0 ∧
    (run doubledSumInputs ["--vars", vars, "e"]).Prints "6\n" "" 0 ∧
    (run doubledSumInputs ["e"]).Prints "" "error: n is not defined\n" 1 ∧
    (run doubledSumInputs ["--json", "--vars", "[1]", "e"]).Prints ""
      "safexpr: bindings must be a JSON object, got an array\n" 2 := by
  intro vars
  have hsource : readText doubledSumInputs false "e" = .ok " ( n + 1 ) * 2" := by
    unfold readText
    cases isStdin "e" <;> rfl
  have hbindable : Bindable vars := bindable_iff.mpr ⟨_, ofOptionalText?_two⟩
  refine ⟨?_, ?_, ?_, ?_⟩
  · let o : Options :=
      { file := some "e", vars := some vars, config := some "c", maxDepth := some 1, json := true }
    have hargs : Options.ofArguments
        ["--json", "--vars", vars, "--config=c", "--max-depth", "1", "e"] = .ok o := by
      decide +kernel
    have hconfig : ReadsConfig doubledSumInputs o ⟨0, 65536⟩ := .file rfl rfl (by decide +kernel)
    have hgathers : Gathers doubledSumInputs o " ( n + 1 ) * 2" vars ⟨1, 65536⟩ :=
      .mk rfl rfl hsource (.argument rfl rfl) hconfig
    have hjson : (⟨true, some "6", none, none⟩ : Report).toJson ++ "\n" =
        "\x7b\"success\":true,\"result\":\"6\"\x7d\n" := by decide +kernel
    obtain ⟨hprints, -⟩ :=
      (run_prints_ofSource doubledSumInputs unexplained _ o _ _ _ hargs hgathers).1 hbindable
    rw [ofSource_doubledSum (by decide) (by decide), hjson] at hprints
    exact hprints rfl
  · let o : Options := { file := some "e", vars := some vars }
    have hargs : Options.ofArguments ["--vars", vars, "e"] = .ok o := by decide +kernel
    have hgathers : Gathers doubledSumInputs o " ( n + 1 ) * 2" vars {} :=
      .mk rfl rfl hsource (.argument rfl rfl) (.default rfl)
    obtain ⟨-, hprints, -⟩ :=
      (run_prints_ofSource doubledSumInputs unexplained _ o _ _ _ hargs hgathers).1 hbindable
    rw [ofSource_doubledSum (by decide) (by decide)] at hprints
    obtain ⟨_, ⟨⟩, hprints⟩ := hprints rfl rfl
    exact hprints
  · let o : Options := { file := some "e" }
    have hargs : Options.ofArguments ["e"] = .ok o := by decide +kernel
    have hgathers : Gathers doubledSumInputs o " ( n + 1 ) * 2" "" {} :=
      .mk rfl rfl hsource (.absent rfl rfl) (.default rfl)
    obtain ⟨d, hreport⟩ := ofSource_doubledSum_unbound
    obtain ⟨-, -, hprints⟩ :=
      (run_prints_ofSource doubledSumInputs unexplained _ o _ _ _ hargs hgathers).1 (.inl rfl)
    rw [hreport] at hprints
    obtain ⟨_, ⟨⟩, hprints⟩ := hprints rfl rfl
    exact hprints
  · let o : Options := { file := some "e", vars := some "[1]", json := true }
    have hargs : Options.ofArguments ["--json", "--vars", "[1]", "e"] = .ok o := by decide +kernel
    have hgathers : Gathers doubledSumInputs o " ( n + 1 ) * 2" "[1]" {} :=
      .mk rfl rfl hsource (.argument rfl rfl) (.default rfl)
    have hvars : Bindings.ofOptionalText? "[1]" = .error (.notAnObject "an array") := by
      with_unfolding_all rfl
    have hnone : ¬ Bindable "[1]" := by
      rw [bindable_iff, hvars]
      rintro ⟨b, ⟨⟩⟩
    have hprints :=
      (run_prints_ofSource doubledSumInputs unexplained _ o _ _ _ hargs hgathers).2 hnone
    rw [Report.ofSource, hvars] at hprints
    obtain ⟨_, ⟨⟩, hprints⟩ := hprints
    exact hprints

end Reckon.CommandLine
