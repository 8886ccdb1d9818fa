import MiniScheme.Proofs.Evaluation.Value
import MiniScheme.Proofs.Grammar.Unlimited
import MiniScheme.Proofs.Session.Failure

/-!
# A limit on nesting changes no result

Reading, evaluation and printing go down to a number of levels. Each of them is a recursion whose steps pass
on that a part was too deep, and for each of them some number of levels is enough: one more than the
characters of a text, and the depth of a datum. So each has a form without a limit, and its outcome with a
number of levels is the outcome without a limit or the one that says that nesting was too deep.

Evaluation has a second use for its levels: an operator goes down into its arguments with those that are left.
They are enough there too, because the lists around an integer were part of the form.
-/

namespace MiniScheme

/-! ## Operators -/

theorem Datum.toIntegerWithin_sameOr {levels : Nat} {v : Datum} {x : Except Error Int}
    (h : v.wraps ≤ levels → x = .ok v.toInteger) :
    SameOrError .recursionTooDeep Int (v.toIntegerWithin levels) x := by
  by_cases hWithin : v.wraps ≤ levels
  · exact .inl ((toIntegerWithin_of_le hWithin).trans (h hWithin).symm)
  · rw [toIntegerWithin_eq, integerIf, if_neg (by simpa using hWithin)]
    exact .inr rfl

theorem Operator.fold_sameOr (op : Operator) {integer integer' : Datum → Except Error Int}
    (h : ∀ v, SameOrError .recursionTooDeep Int (integer v) (integer' v)) (args : List Datum) :
    SameOrError .recursionTooDeep Datum (op.fold integer args) (op.fold integer' args) := by
  cases args with
  | nil => exact .inl rfl
  | cons first others =>
    have hIntegers : SameOrError .recursionTooDeep Int (op.foldIntegers integer first others)
        (op.foldIntegers integer' first others) :=
      (h first).bind fun start => SameOrError.foldlM (fun n arg => (h arg).bind fun m => .inl rfl) others start
    rcases hIntegers with hEq | hDeep
    · exact .inl (congrArg op.answer hEq)
    · exact .inr (congrArg op.answer hDeep)

theorem applyBy_sameOr {integer integer' : Datum → Except Error Int}
    (h : ∀ v, SameOrError .recursionTooDeep Int (integer v) (integer' v)) (name : String) (args : List Datum) :
    Traced.SameOr .recursionTooDeep Datum (applyBy integer name args) (applyBy integer' name args) := by
  unfold applyBy
  cases Operator.ofName? name with
  | none => exact .inl rfl
  | some op =>
    rcases op.fold_sameOr h args with hEq | hDeep
    · simp only [hEq]
      exact .inl rfl
    · simp only [hDeep]
      exact .inr rfl

theorem applyWithin_sameOr {n m : Nat} (h : n ≤ m) (name : String) (args : List Datum) :
    Traced.SameOr .recursionTooDeep Datum (applyWithin n name args) (applyWithin m name args) :=
  applyBy_sameOr (fun _ => Datum.toIntegerWithin_sameOr fun hWithin =>
    Datum.toIntegerWithin_of_le (hWithin.trans h)) name args

theorem applyWithin_sameOr_unlimited (levels : Nat) (name : String) (args : List Datum) :
    Traced.SameOr .recursionTooDeep Datum (applyWithin levels name args) (applyUnlimited name args) :=
  applyBy_sameOr (fun _ => Datum.toIntegerWithin_sameOr fun _ => rfl) name args

/-! ## Evaluation -/

/-- One level of evaluation, by the applications of operators. -/
def evaluateBy (apply : String → List Datum → Traced Datum) (value : Datum → Traced Datum) (datum : Datum) :
    Traced Datum :=
  match datum.form with
  | .constant => pure datum
  | .quotation quoted => pure quoted
  | .application operator args => do
    let values ← args.mapM value
    apply operator values
  | .reference name => Traced.fail (.unboundSymbol name)
  | .malformed => Traced.fail (.malformedForm datum.kind)

/-- One level of evaluation. -/
def evaluateOf (value : Datum → Traced Datum) (datum : Datum) : Traced Datum :=
  evaluateBy applyUnlimited value datum

/-- One level of evaluation, with a number of levels left. -/
def evaluateOfWithin (levels : Nat) (value : Datum → Traced Datum) (datum : Datum) : Traced Datum :=
  evaluateBy (fun operator values => (applyWithin levels operator values).mapError Error.inEvaluation) value datum

theorem evaluateBy_sameOr {apply apply' : String → List Datum → Traced Datum}
    {value value' : Datum → Traced Datum}
    (hApply : ∀ operator values,
      Traced.SameOr .evaluationTooDeep Datum (apply operator values) (apply' operator values))
    (h : ∀ v, Traced.SameOr .evaluationTooDeep Datum (value v) (value' v)) (datum : Datum) :
    Traced.SameOr .evaluationTooDeep Datum (evaluateBy apply value datum) (evaluateBy apply' value' datum) := by
  unfold evaluateBy
  cases datum.form with
  | application operator args =>
    have hArgs := mapM_related (fun _ => .inl rfl) Traced.SameOr.bind fun arg (_ : arg ∈ args) => h arg
    exact hArgs.bind (hApply operator)
  | constant | quotation | reference | malformed => exact .inl rfl

theorem evaluateOfWithin_sameOr {n m : Nat} (hLe : n ≤ m) {value value' : Datum → Traced Datum}
    (h : ∀ v, Traced.SameOr .evaluationTooDeep Datum (value v) (value' v)) (datum : Datum) :
    Traced.SameOr .evaluationTooDeep Datum (evaluateOfWithin n value datum) (evaluateOfWithin m value' datum) :=
  evaluateBy_sameOr
    (fun operator values => (applyWithin_sameOr hLe operator values).mapError Error.inEvaluation) h datum

theorem evaluateOfWithin_sameOr_unlimited (levels : Nat) {value value' : Datum → Traced Datum}
    (h : ∀ v, Traced.SameOr .evaluationTooDeep Datum (value v) (value' v)) (datum : Datum) :
    Traced.SameOr .evaluationTooDeep Datum (evaluateOfWithin levels value datum) (evaluateOf value' datum) := by
  refine evaluateBy_sameOr (fun operator values => ?_) h datum
  rw [← applyUnlimited_inEvaluation operator values]
  exact (applyWithin_sameOr_unlimited levels operator values).mapError Error.inEvaluation

/-! ### Levels that are enough -/

theorem depth_lt_of_form {datum arg : Datum} {operator : String} {args : List Datum}
    (h : datum.form = .application operator args) (hArg : arg ∈ args) : arg.depth < datum.depth := by
  rw [Datum.eq_of_form_application h, Datum.depth]
  have hItems := (Datum.itemsDepth_le_iff.mp (Nat.le_refl _)).2 arg (List.mem_cons_of_mem (.symbol operator) hArg)
  omega

theorem depth_quotation (x : Datum) : x.depth < (Datum.list [.symbol "quote", x]).depth := by
  simp only [Datum.depth, Datum.itemsDepth]
  omega

theorem Datum.wraps_lt_depth (v : Datum) : v.wraps < v.depth := by
  fun_induction Datum.wraps v with
  | case1 item ih =>
    simp only [depth, itemsDepth]
    omega
  | case2 v => exact Grammar.one_le_depth v

/-- The lists around the integer of a value stand in the form. -/
theorem wraps_lt_of_evaluate {levels : Nat} {datum v : Datum}
    (h : (evaluateWithin levels datum).result = .ok v) : v.wraps < datum.depth := by
  by_cases hQuotation : ∃ x, datum = .list [.symbol "quote", x]
  · obtain ⟨x, rfl⟩ := hQuotation
    cases levels with
    | zero => cases h
    | succ levels =>
      rw [evaluate_quotation (Nat.succ_pos levels)] at h
      cases h
      exact v.wraps_lt_depth.trans (depth_quotation v)
  · have hKind := kind_of_evaluate (fun x hDatum => hQuotation ⟨x, hDatum⟩) h
    have hWraps : v.wraps = 0 := by
      cases v with
      | number | string | bool => rfl
      | _ => simp [Datum.kind, constantKinds] at hKind
    have hOne := Grammar.one_le_depth datum
    omega

/-- As many levels as the depth are enough. -/
theorem failsOnly_evaluate_of_depth {levels : Nat} {datum : Datum} (h : datum.depth ≤ levels) :
    FailsOnly (· ≠ .evaluationTooDeep) (evaluateWithin levels datum).result := by
  induction levels generalizing datum with
  | zero =>
    have := Grammar.one_le_depth datum
    omega
  | succ levels ih =>
    refine failsOnly_evaluate_succ (by simp) (by simp) (by simp) (by simp) ?_ ?_
    · intro operator args hForm arg hArg
      apply ih
      have := depth_lt_of_form hForm hArg
      omega
    · rintro operator args values hForm hValues ⟨v, hv, hWraps⟩
      obtain ⟨arg, hArg, hValue⟩ := exists_of_mem_mapM hValues hv
      have := depth_lt_of_form hForm hArg
      have := wraps_lt_of_evaluate hValue
      omega

/-- Evaluation, as a recursion by its levels. -/
def evaluation : LimitedRecursion Datum (Traced Datum) where
  step := evaluateOf
  stepWithin := evaluateOfWithin
  TooDeep x := x.result = .error .evaluationTooDeep
  within := evaluateWithin
  within_zero _ := rfl
  within_succ _ := rfl
  stepWithin_mono hLe h := evaluateOfWithin_sameOr hLe h
  stepWithin_step levels _ _ h := evaluateOfWithin_sameOr_unlimited levels h
  levels := Datum.depth
  enough h hDeep := failsOnly_evaluate_of_depth h _ hDeep rfl

/-! ## Printing -/

/-- One level of printing. -/
def Datum.printOf (word : Datum → Except Error String) : Datum → Except Error String
  | .string s => .ok ("\"" ++ s ++ "\"")
  | .symbol name => .ok name
  | .number n => .ok (Numeral.decimal n)
  | .bool true => .ok "#t"
  | .bool false => .ok "#f"
  | .list items => do
    let words ← items.mapM word
    return "(" ++ unwords words ++ ")"
  | .dotted items tail => do
    let words ← items.mapM word
    let last ← word tail
    return "(" ++ unwords words ++ " . " ++ last ++ ")"
  | other => .error (.unprintable other.kind)

theorem printOf_sameOr {word word' : Datum → Except Error String}
    (h : ∀ v, SameOrError .printingTooDeep String (word v) (word' v)) (datum : Datum) :
    SameOrError .printingTooDeep String (datum.printOf word) (datum.printOf word') := by
  have hWords : ∀ items : List Datum,
      SameOrError .printingTooDeep (List String) (items.mapM word) (items.mapM word') :=
    fun items => mapM_related (fun _ => .inl rfl) SameOrError.bind fun item _ => h item
  cases datum with
  | list items => exact (hWords items).bind fun words => .inl rfl
  | dotted items tail => exact (hWords items).bind fun words => (h tail).bind fun last => .inl rfl
  | bool b => cases b <;> exact .inl rfl
  | symbol | number | string | character | float | ratio | complex | vector => exact .inl rfl

theorem failsOnly_print_of_depth {levels : Nat} {datum : Datum} (h : datum.depth ≤ levels) :
    FailsOnly (· ≠ .printingTooDeep) (datum.printWithin levels) := by
  induction levels generalizing datum with
  | zero =>
    have := Grammar.one_le_depth datum
    omega
  | succ levels ih =>
    have hWords : ∀ items : List Datum, Datum.itemsDepth items ≤ levels →
        FailsOnly (· ≠ .printingTooDeep) (items.mapM (Datum.printWithin levels)) :=
      fun items hItems => failsOnly_mapM fun v hv => ih ((Datum.itemsDepth_le_iff.mp hItems).2 v hv)
    cases datum with
    | list items =>
      rw [Datum.depth] at h
      exact failsOnly_bind (hWords items (by omega)) fun words => failsOnly_ok _
    | dotted items tail =>
      rw [Datum.depth] at h
      exact failsOnly_bind (hWords items (by omega)) fun words =>
        failsOnly_bind (ih (by omega)) fun last => failsOnly_ok _
    | bool b => cases b <;> exact failsOnly_ok _
    | symbol | number | string => exact failsOnly_ok _
    | character | float | ratio | complex | vector => exact failsOnly_error (by simp)

/-- Printing, as a recursion by its levels. -/
def printing : LimitedRecursion Datum (Except Error String) where
  step := Datum.printOf
  stepWithin _ := Datum.printOf
  TooDeep x := x = .error .printingTooDeep
  within levels datum := datum.printWithin levels
  within_zero _ := rfl
  within_succ _ := rfl
  stepWithin_mono _ h := printOf_sameOr h
  stepWithin_step _ _ _ h := printOf_sameOr h
  levels := Datum.depth
  enough h hDeep := failsOnly_print_of_depth h _ hDeep rfl

/-! ## Reading from a source -/

/-- What is read from a source, by the outcome of the rule at its start. -/
def readAnswer (name source : String) : Outcome Datum → Traced Datum
  | .ok datum _ => pure datum
  | .mismatch m _ => noMatch name source.toList m.position m.describe
  | .abort .readingTooDeep next => noMatch name source.toList next.offset "expression nested too deeply"
  | .abort e _ => Traced.fail e

/-- The expression at the start of a source, of any number of levels. -/
def readUnlimited (name source : String) : Traced Datum :=
  readAnswer name source (Grammar.unlimitedExpression.run (.start source.toList))

theorem readWithin_eq (levels : Nat) (name source : String) :
    readWithin levels name source =
      readAnswer name source ((Grammar.expression levels).run (.start source.toList)) := by
  unfold readWithin
  cases (Grammar.expression levels).run (.start source.toList) with
  | ok datum next => rfl
  | mismatch m next => rfl
  | abort e next => cases e <;> rfl

/-- The source is read as the string that says that it nests too deeply. -/
def ReadTooDeep (name source : String) (x : Traced Datum) : Prop :=
  ∃ offset, x = noMatch name source.toList offset "expression nested too deeply"

/-- No other outcome of an expression is answered like one that is too deep. -/
theorem readTooDeep_readAnswer_iff (levels : Nat) (name source : String) (c : Cursor) :
    ReadTooDeep name source (readAnswer name source ((Grammar.expression levels).run c)) ↔
      ((Grammar.expression levels).run c).TooDeep := by
  constructor
  · rintro ⟨offset, hAnswer⟩
    have hEvents := congrArg Traced.events hAnswer
    cases hRun : (Grammar.expression levels).run c with
    | ok datum next =>
      rw [hRun] at hEvents
      cases hEvents
    | mismatch m next =>
      rw [hRun] at hEvents
      have hReason : m.describe = "expression nested too deeply" := by
        have hEvent : Event.readFailed m.position m.describe =
            .readFailed offset "expression nested too deeply" := List.head_eq_of_cons_eq hEvents
        injection hEvent
      -- the words for a mismatch start with what was found
      obtain ⟨-, hLocated⟩ := (Grammar.reads_expression levels).of_mismatch hRun
      obtain ⟨more, hDescribe⟩ := hLocated.describe_eq
      have hFirst := congrArg (fun s : String => s.toList.head?) (hDescribe.symm.trans hReason)
      simp at hFirst
    | abort e next =>
      obtain ⟨-, rfl⟩ := (Grammar.reads_expression levels).of_abort hRun
      exact ⟨next, rfl⟩
  · rintro ⟨next, hRun⟩
    rw [hRun]
    exact ⟨next.offset, rfl⟩

theorem settles_readWithin (name source : String) :
    Settles (fun levels => readWithin levels name source) (readUnlimited name source)
      (ReadTooDeep name source) := by
  have hAnswers := (Grammar.reading.settles (.start source.toList)).map (readAnswer name source)
    fun levels => readTooDeep_readAnswer_iff levels name source _
  have hRead : (fun levels => readWithin levels name source) = fun levels =>
      readAnswer name source ((Grammar.expression levels).run (.start source.toList)) :=
    funext fun levels => readWithin_eq levels name source
  rw [hRead]
  exact hAnswers

/-! ## All together -/

open Rule in
/-- A limit on nesting never changes a result. Each of the three programs without a limit is the only
solution of its equation. With any number of levels its outcome is that of the program without a limit or
the one for nesting that is too deep; an outcome that is not too deep stays when levels are added; and there
are levels from which on it is the outcome without a limit. That nesting is too deep is passed on by an
attempt, an option, a choice and a repetition, wherever in them it comes up. -/
theorem limit_changes_no_result :
    ((∀ expr, expr = Grammar.expressionOf expr ↔ expr = Grammar.unlimitedExpression) ∧
      (∀ c, Settles (fun levels => (Grammar.expression levels).run c)
        (Grammar.unlimitedExpression.run c) Outcome.TooDeep) ∧
      ∀ name source, Settles (fun levels => readWithin levels name source)
        (readUnlimited name source) (ReadTooDeep name source)) ∧
    ((∀ value, value = evaluateOf value ↔ value = evaluation.unlimited) ∧
      ∀ datum, Settles (fun levels => evaluateWithin levels datum) (evaluation.unlimited datum)
        fun x => x.result = .error .evaluationTooDeep) ∧
    Error.evaluationTooDeep.label = "SchemerNestingError" ∧
    ((∀ word, word = Datum.printOf word ↔ word = printing.unlimited) ∧
      ∀ datum : Datum, Settles (fun levels => datum.printWithin levels) (printing.unlimited datum)
        fun x => x = .error .printingTooDeep) ∧
    Error.printingTooDeep.label = "SchemerRenderError" ∧
    Error.printingTooDeep.message = "Value is nested too deeply to render" ∧
    ∀ (α : Type) (r : Rule α) (c next : Cursor), r.run c = .abort .readingTooDeep next →
      (attempt r).run c = .abort .readingTooDeep next ∧
      (optional r).run c = .abort .readingTooDeep next ∧
      (∀ rs rs' : List (Rule α), (∀ r' ∈ rs, Refuses r' c) →
        (choice (rs ++ r :: rs')).run c = .abort .readingTooDeep next) ∧
      ∀ P first as, r.Reads P → Rounds r first as c →
        (many r).run first = .abort .readingTooDeep next := by
  refine ⟨⟨Grammar.eq_expressionOf_iff, Grammar.reading.settles, settles_readWithin⟩,
    ⟨evaluation.eq_step_iff, evaluation.settles⟩, rfl, ⟨printing.eq_step_iff, printing.settles⟩, rfl, rfl,
    ?_⟩
  intro α r c next hRun
  refine ⟨run_attempt_of_abort hRun, run_optional_of_abort hRun, ?_, ?_⟩
  · intro rs rs' hRefuse
    exact run_choice_of_abort hRefuse hRun
  · intro P first as hReads hRounds
    exact run_many_of_rounds hReads hRounds hRun

open Rule in
/-- A list that three levels are enough for, and a mark too many in a choice and in a repetition. -/
theorem limit_changes_no_result_quotation :
    (Grammar.expression 10000).run (.start "('a)".toList) =
      .ok (.list [.list [.symbol "quote", .symbol "a"]]) ⟨4, []⟩ ∧
    (choice [Grammar.string, Grammar.quoted (Grammar.expression 1), Grammar.symbol]).run
      ⟨2, "''b".toList⟩ = .abort .readingTooDeep ⟨4, ['b']⟩ ∧
    (many (Grammar.quoted (Grammar.expression 1))).run (.start "'a''b".toList) =
      .abort .readingTooDeep ⟨4, ['b']⟩ := by
  obtain ⟨⟨-, hSettles, -⟩, -, -, -, -, -, hPassed⟩ := limit_changes_no_result
  have hThree : (Grammar.expression 3).run (.start "('a)".toList) =
      .ok (.list [.list [.symbol "quote", .symbol "a"]]) ⟨4, []⟩ := by
    rfl
  have hDeep : (Grammar.quoted (Grammar.expression 1)).run ⟨2, "''b".toList⟩ =
      .abort .readingTooDeep ⟨4, ['b']⟩ := by
    rfl
  have hFirst : (Grammar.quoted (Grammar.expression 1)).run (.start "'a''b".toList) =
      .ok (.list [.symbol "quote", .symbol "a"]) ⟨2, "''b".toList⟩ := by
    rfl
  obtain ⟨-, -, hChoice, hMany⟩ := hPassed _ _ _ _ hDeep
  refine ⟨?_, ?_, ?_⟩
  · rw [← hThree]
    refine (hSettles _).stays 3 10000 (by decide) ?_
    rintro ⟨next, hRun⟩
    cases hThree.symm.trans hRun
  · exact hChoice [Grammar.string] [Grammar.symbol]
      (List.forall_mem_singleton.mpr (Grammar.refuses_string (by simp)))
  · have hReads := Grammar.reads_quotation (Grammar.reads_expression 1) rfl .quote
    exact hMany _ _ _ hReads (.cons hFirst (by decide) (.nil _))

end MiniScheme
