import MiniScheme.CommandLine
import MiniScheme.Proofs.Arithmetic.Application
import MiniScheme.Proofs.Read
import MiniScheme.Proofs.Trace

/-!
# The failures of a session

Reading never fails: a text that does not match, or nests too deeply, is read as a string that says so, and the
session answers with that string. What is left are the errors of evaluation and of printing, and the command line
turns each of them into its exit code.
-/

namespace MiniScheme

/-! ## Classes of errors -/

/-- The classes of errors that evaluation and printing report. -/
def reportedLabels : List String :=
  ["UnboundSymbol", "MalformedForm", "SchemerArityError", "SchemerDivisionByZero",
    "SchemerNestingError", "SchemerRenderError"]

/-- The error is one that evaluation or printing reports. -/
def Error.Reported (e : Error) : Prop :=
  e.label ∈ reportedLabels

/-- The classes of errors that evaluation reports. -/
def evaluationLabels : List String :=
  ["UnboundSymbol", "MalformedForm", "SchemerArityError", "SchemerDivisionByZero",
    "SchemerNestingError"]

theorem Error.reported_of_evaluation {e : Error} (h : e.label ∈ evaluationLabels) : e.Reported :=
  List.mem_append_left ["SchemerRenderError"] h

/-! ## Evaluation and printing -/

/-- An operator fails for want of arguments, because of a zero divisor, or at a datum that is too deep. -/
theorem failsOnly_applyWithin {Q : Error → Prop} (hNone : ∀ operator, Q (.noArguments operator))
    (hZero : ∀ operator, Q (.divisionByZero operator)) {levels : Nat} {args : List Datum}
    (hDeep : (∃ arg ∈ args, levels < arg.wraps) → Q .recursionTooDeep) (name : String) :
    FailsOnly Q (applyWithin levels name args).result := by
  by_cases hName : name ∈ ["+", "-", "*", "/", "mod", "quotient", "remainder"]
  · obtain ⟨op, rfl⟩ := Operator.exists_name hName
    cases args with
    | nil =>
      rw [result_applyWithin]
      exact failsOnly_error (hNone op.name)
    | cons first others =>
      rw [result_applyWithin_cons]
      split
      · exact failsOnly_error (hZero op.name)
      · split
        · exact failsOnly_ok _
        · next hNot =>
          refine failsOnly_error (hDeep ?_)
          simpa only [not_forall, Nat.not_le, exists_prop] using hNot
  · rw [applyWithin, applyBy, Operator.ofName?_eq_none hName]
    exact failsOnly_ok _

/-- One level of evaluation fails as an argument fails, or in one of five ways of its own. -/
theorem failsOnly_evaluate_succ {Q : Error → Prop} (hNone : ∀ operator, Q (.noArguments operator))
    (hZero : ∀ operator, Q (.divisionByZero operator)) (hUnbound : ∀ name, Q (.unboundSymbol name))
    (hMalformed : ∀ kind, Q (.malformedForm kind)) {levels : Nat} {datum : Datum}
    (hArgs : ∀ operator args, datum.form = .application operator args →
      ∀ arg ∈ args, FailsOnly Q (evaluateWithin levels arg).result)
    (hDeep : ∀ operator args values, datum.form = .application operator args →
      args.mapM (fun arg => (evaluateWithin levels arg).result) = .ok values →
        (∃ v ∈ values, levels < v.wraps) → Q .evaluationTooDeep) :
    FailsOnly Q (evaluateWithin (levels + 1) datum).result := by
  rw [evaluateWithin]
  cases hForm : datum.form with
  | constant => exact failsOnly_ok _
  | quotation quoted => exact failsOnly_ok _
  | application operator args =>
    show FailsOnly Q (args.mapM (evaluateWithin levels) >>= fun values =>
      (applyWithin levels operator values).mapError Error.inEvaluation).result
    rw [Traced.bind_result, Traced.mapM_result]
    apply failsOnly_bind_of_ok (failsOnly_mapM (hArgs operator args hForm))
    intro values hValues
    exact failsOnly_mapError (failsOnly_applyWithin (Q := fun e => Q e.inEvaluation) hNone hZero
      (hDeep operator args values hForm hValues) operator)
  | reference name => exact failsOnly_error (hUnbound name)
  | malformed => exact failsOnly_error (hMalformed datum.kind)

theorem failsOnly_evaluate (levels : Nat) (datum : Datum) :
    FailsOnly (·.label ∈ evaluationLabels) (evaluateWithin levels datum).result := by
  induction levels generalizing datum with
  | zero => exact failsOnly_error (by simp [evaluationLabels, Error.label])
  | succ levels ih =>
    refine failsOnly_evaluate_succ ?_ ?_ ?_ ?_ (fun _ _ _ arg _ => ih arg) fun _ _ _ _ _ _ => ?_
    all_goals simp [evaluationLabels, Error.label]

theorem failsOnly_print (levels : Nat) (datum : Datum) :
    FailsOnly Error.Reported (datum.printWithin levels) := by
  induction levels generalizing datum with
  | zero => exact failsOnly_error (by simp [Error.Reported, reportedLabels, Error.label])
  | succ levels ih =>
    have hOther : FailsOnly (α := String) Error.Reported (.error (.unprintable datum.kind)) :=
      failsOnly_error (by simp [Error.Reported, reportedLabels, Error.label])
    cases datum with
    | symbol | number | string => exact failsOnly_ok _
    | bool b => cases b <;> exact failsOnly_ok _
    | list items => exact failsOnly_bind (failsOnly_mapM fun v _ => ih v) fun words => failsOnly_ok _
    | dotted items tail =>
      exact failsOnly_bind (failsOnly_mapM fun v _ => ih v) fun words =>
        failsOnly_bind (ih tail) fun last => failsOnly_ok _
    | character | float | ratio | complex | vector => exact hOther

/-! ## Sessions -/

namespace Session

theorem failsOnly_run (session : Session) (limits : Limits) (source : String) :
    FailsOnly Error.Reported (session.run limits source).result := by
  obtain ⟨v, hRead⟩ := exists_result_readWithin limits.reading session.sourceName source
  have hEvaluate : (session.evaluate limits source).result = (evaluateWithin limits.evaluation v).result := by
    rw [evaluate, Traced.bind_result, read, hRead]
    rfl
  rw [run, Traced.bind_result, hEvaluate]
  have hFailures := (failsOnly_evaluate limits.evaluation v).imp fun _ => Error.reported_of_evaluation
  exact failsOnly_bind hFailures fun value => failsOnly_print limits.printing value

/-- A source that is read as a string is answered with the string in quotes. -/
theorem run_of_read_string {session : Session} {limits : Limits} {source s : String}
    (h : (session.read limits source).result = .ok (.string s)) :
    (session.run limits source).result = .ok ("\"" ++ s ++ "\"") := by
  obtain ⟨levels, hEvaluation⟩ := Nat.exists_eq_add_of_lt limits.evaluation_pos
  obtain ⟨levels', hPrinting⟩ := Nat.exists_eq_add_of_lt limits.printing_pos
  have hEvaluate : (session.evaluate limits source).result = .ok (.string s) := by
    rw [evaluate, Traced.bind_result, h, hEvaluation]
    rfl
  rw [run, Traced.bind_result, hEvaluate, hPrinting]
  rfl

/-- A source that reading gives up on at an offset is answered with the place of the offset and the reason. -/
theorem run_of_noMatch {session : Session} {limits : Limits} {source reason : String} {offset : Nat}
    (hRead : session.read limits source = noMatch session.sourceName source.toList offset reason)
    (hOffset : offset ≤ source.toList.length) :
    ∃ line column, Text.HasCoordinates source.toList offset line column ∧
      (session.run limits source).result = .ok ("\"No match: \"" ++ session.sourceName ++ "\" (line "
        ++ toString (line + 1) ++ ", column " ++ toString (column + 1) ++ "):\n" ++ reason ++ "\"") := by
  obtain ⟨line, column, hCoordinates, hPlace⟩ := Text.exists_coordinates hOffset
  refine ⟨line, column, hCoordinates, ?_⟩
  rw [run_of_read_string (hRead ▸ result_noMatch session.sourceName reason hPlace)]
  simp only [← String.append_assoc]
  rfl

end Session

/-! ## The command line -/

namespace CommandLine

theorem result_runFirst (limits : Limits) (settings : Settings) (source : String) (count : Nat) :
    (runFirst limits settings source count).result =
      (Session.run ⟨settings.sourceName⟩ limits source).result := by
  unfold runFirst
  split
  · rfl
  · rfl

theorem run_of_ok {limits : Limits} {env : Environment} {source text : String}
    (h : (Session.run ⟨(Settings.ofEnvironment env).sourceName⟩ limits source).result = .ok text)
    (others : List String) :
    (run limits env (source :: others)).code = 0 ∧
      (run limits env (source :: others)).out = text ++ "\n" := by
  rw [← result_runFirst limits (Settings.ofEnvironment env) source others.length] at h
  simp only [run, h, and_self]

theorem run_of_error {limits : Limits} {env : Environment} {source : String} {e : Error}
    (h : (Session.run ⟨(Settings.ofEnvironment env).sourceName⟩ limits source).result = .error e)
    (others : List String) :
    (run limits env (source :: others)).code = 1 ∧ (run limits env (source :: others)).out = "" := by
  rw [← result_runFirst limits (Settings.ofEnvironment env) source others.length] at h
  simp only [run, h, and_self]

theorem code_eq_two_iff (limits : Limits) (env : Environment) (args : List String) :
    (run limits env args).code = 2 ↔ args = [] := by
  cases args with
  | nil => simp [run]
  | cons source others =>
    cases h : (Session.run ⟨(Settings.ofEnvironment env).sourceName⟩ limits source).result with
    | ok text => simp [(run_of_ok h others).1]
    | error e => simp [(run_of_error h others).1]

/-- The code and the output depend on the first argument and the name of the source. -/
theorem run_eq_of_sourceName (limits : Limits) {env env' : Environment}
    (h : (Settings.ofEnvironment env).sourceName = (Settings.ofEnvironment env').sourceName) (source : String)
    (others others' : List String) :
    (run limits env (source :: others)).code = (run limits env' (source :: others')).code ∧
      (run limits env (source :: others)).out = (run limits env' (source :: others')).out := by
  cases hResult : (Session.run ⟨(Settings.ofEnvironment env).sourceName⟩ limits source).result with
  | ok text =>
    obtain ⟨hCode, hOut⟩ := run_of_ok hResult others
    obtain ⟨hCode', hOut'⟩ := run_of_ok (h ▸ hResult) others'
    exact ⟨hCode.trans hCode'.symm, hOut.trans hOut'.symm⟩
  | error e =>
    obtain ⟨hCode, hOut⟩ := run_of_error hResult others
    obtain ⟨hCode', hOut'⟩ := run_of_error (h ▸ hResult) others'
    exact ⟨hCode.trans hCode'.symm, hOut.trans hOut'.symm⟩

theorem sourceName_logLevel (env : Environment) (level : Option String) :
    (Settings.ofEnvironment fun name =>
      if name = "SCHEMER_LOG_LEVEL" then level else env name).sourceName =
        (Settings.ofEnvironment env).sourceName := by
  rfl

/-- No failure escapes but those of evaluation and printing. The errors of a session are in their classes;
a source that does not match or nests too deeply is answered with the string that says so, with the name of the
source, the line and the column of what was found, and the reason. The command line has the exit code two without
arguments only. Otherwise the code is zero and the output is the first argument's result, or the code is one and
there is no output, whatever the further arguments and the rest of the environment are. -/
theorem only_reported_failures_escape (limits : Limits) :
    (∀ (session : Session) (source : String) (e : Error), (session.run limits source).result = .error e →
      e.label ∈ ["UnboundSymbol", "MalformedForm", "SchemerArityError", "SchemerDivisionByZero",
        "SchemerNestingError", "SchemerRenderError"]) ∧
    (∀ (session : Session) (source : String) (m : Mismatch) (next : Cursor),
      (Grammar.expression limits.reading).run (.start source.toList) = .mismatch m next →
        ∃ line column, Text.HasCoordinates source.toList m.position line column ∧
          (session.run limits source).result = .ok ("\"No match: \"" ++ session.sourceName ++ "\" (line "
            ++ toString (line + 1) ++ ", column " ++ toString (column + 1) ++ "):\n" ++ m.describe ++ "\"")) ∧
    (∀ (session : Session) (source : String) (e : Error) (next : Cursor),
      (Grammar.expression limits.reading).run (.start source.toList) = .abort e next →
        e = .readingTooDeep ∧
        ∃ line column, Text.HasCoordinates source.toList next.offset line column ∧
          (session.run limits source).result = .ok ("\"No match: \"" ++ session.sourceName ++ "\" (line "
            ++ toString (line + 1) ++ ", column " ++ toString (column + 1) ++ "):\n"
            ++ "expression nested too deeply" ++ "\"")) ∧
    (∀ (env : Environment) (args : List String), (run limits env args).code = 2 ↔ args = []) ∧
    (∀ (env : Environment) (source : String) (others : List String),
      (∀ text, (Session.run ⟨(Settings.ofEnvironment env).sourceName⟩ limits source).result = .ok text →
        (run limits env (source :: others)).code = 0 ∧
        (run limits env (source :: others)).out = text ++ "\n") ∧
      ∀ e, (Session.run ⟨(Settings.ofEnvironment env).sourceName⟩ limits source).result = .error e →
        (run limits env (source :: others)).code = 1 ∧ (run limits env (source :: others)).out = "") ∧
    (∀ (env env' : Environment) (source : String) (others others' : List String),
      (Settings.ofEnvironment env).sourceName = (Settings.ofEnvironment env').sourceName →
        (run limits env (source :: others)).code = (run limits env' (source :: others')).code ∧
        (run limits env (source :: others)).out = (run limits env' (source :: others')).out) ∧
    (∀ (env : Environment) (level : Option String),
      (Settings.ofEnvironment fun name =>
        if name = "SCHEMER_LOG_LEVEL" then level else env name).sourceName =
          (Settings.ofEnvironment env).sourceName) := by
  refine ⟨fun session source => session.failsOnly_run limits source, ?_, ?_, code_eq_two_iff limits, ?_, ?_,
    sourceName_logLevel⟩
  · intro session source m next hRun
    exact Session.run_of_noMatch (readWithin_of_mismatch hRun session.sourceName) (position_le_of_mismatch hRun)
  · intro session source e next hRun
    obtain ⟨hCause, hOffset, hRead⟩ := readWithin_of_abort hRun session.sourceName
    exact ⟨hCause, Session.run_of_noMatch hRead hOffset⟩
  · intro env source others
    exact ⟨fun text hText => run_of_ok hText others, fun e hError => run_of_error hError others⟩
  · intro env env' source others others' hName
    exact run_eq_of_sourceName limits hName source others others'

/-- A symbol, a string without its closing quote, sixty thousand marks of quotation, and a log level with a
further argument. -/
theorem only_reported_failures_escape_each :
    ((Session.run ⟨"lisp"⟩ .standard "x").result = .error (.unboundSymbol "x") ∧
      (Error.unboundSymbol "x").label ∈ ["UnboundSymbol", "MalformedForm", "SchemerArityError",
        "SchemerDivisionByZero", "SchemerNestingError", "SchemerRenderError"]) ∧
    (∃ m next, (Grammar.expression Limits.standard.reading).run (.start "\"a".toList) = .mismatch m next ∧
      (Session.run ⟨"lisp"⟩ .standard "\"a").result =
        .ok "\"No match: \"lisp\" (line 1, column 3):\nunexpected end of input\nexpecting '\"'\"") ∧
    (∃ next line column, (Grammar.expression Limits.standard.reading).run
        (.start (List.replicate 60000 '\'' ++ ['a'])) = .abort .readingTooDeep next ∧
      Text.HasCoordinates (List.replicate 60000 '\'' ++ ['a']) next.offset line column ∧
      (Session.run ⟨"lisp"⟩ .standard (String.ofList (List.replicate 60000 '\'' ++ ['a']))).result =
        .ok ("\"No match: \"" ++ "lisp" ++ "\" (line " ++ toString (line + 1) ++ ", column "
          ++ toString (column + 1) ++ "):\n" ++ "expression nested too deeply" ++ "\"")) ∧
    (run .standard (fun _ => none) ["(+ 1 2)"]).out =
      (run .standard (fun name => if name = "SCHEMER_LOG_LEVEL" then some "DEBUG" else none)
        ["(+ 1 2)", "y"]).out := by
  obtain ⟨hReported, hMismatch, hAbort, -, -, hSame, hLevel⟩ := only_reported_failures_escape .standard
  refine ⟨?_, ?_, ?_, ?_⟩
  · have hSymbol : (Session.run ⟨"lisp"⟩ .standard "x").result = .error (.unboundSymbol "x") := by
      rfl
    exact ⟨hSymbol, hReported _ _ _ hSymbol⟩
  · have hRun : (Grammar.expression Limits.standard.reading).run (.start "\"a".toList) =
        .mismatch (.of 2 ["'\"'"] (some "end of input")) ⟨2, []⟩ := by
      rfl
    obtain ⟨line, column, hCoordinates, hText⟩ := hMismatch ⟨"lisp"⟩ _ _ _ hRun
    -- the place of the end determines the line and the column
    have hPlace : Text.Place.mk 1 3 = ⟨line + 1, column + 1⟩ := hCoordinates.place_eq (by decide)
    obtain ⟨rfl, rfl⟩ : line = 0 ∧ column = 2 := by
      simpa using hPlace
    exact ⟨_, _, hRun, hText⟩
  · have hText : (String.ofList (List.replicate 60000 '\'' ++ ['a'])).toList =
        List.replicate 60000 '\'' ++ ['a'] := String.toList_ofList
    have hQuotes := run_expression_quotes Limits.standard.reading 0 (List.replicate 50000 '\'' ++ ['a'])
    have hCount : Limits.standard.reading + 50000 = 60000 := rfl
    rw [← List.append_assoc, List.replicate_append_replicate, hCount] at hQuotes
    obtain ⟨-, line, column, hAnswer⟩ := hAbort ⟨"lisp"⟩ (String.ofList (List.replicate 60000 '\'' ++ ['a']))
      _ _ (by rw [hText]; exact hQuotes)
    rw [hText] at hAnswer
    exact ⟨_, line, column, hQuotes, hAnswer⟩
  · exact (hSame _ _ _ _ _ (hLevel (fun _ => none) (some "DEBUG")).symm).2

end CommandLine

end MiniScheme
