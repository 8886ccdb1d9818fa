import MiniScheme.Proofs.Arithmetic.LeadingInteger
import MiniScheme.Proofs.Evaluation.Value
import MiniScheme.Proofs.Grammar.Exactness
import MiniScheme.Session

/-!
# Calculations

A calculation applies operators to integers and to further calculations. Written as a text and run, it
gives the decimal text of its total, or the fault of the first application that has one
(`run_calculation`).

Totals are taken over all integers and faults are told from totals alone, so both are said without reading,
evaluation or printing. Below a fault a total means nothing, but it is not asked for either: applications
are looked at from the inside to the outside, and the fault comes first. What has to be shown is that no
integer changes on the way. A negative one, which has no numeral, is written as a string and counts as the
integer at the start of that string.
-/

namespace MiniScheme

/-! ## Calculations -/

/-- Operators applied to integers and to the totals of other applications. -/
inductive Calculation where
  | integer (n : Int)
  | application (op : Operator) (args : List Calculation)

namespace Calculation

/-- The calculation as a text. A negative integer is put in quotes. -/
def text : Calculation → String
  | .integer n => if 0 ≤ n then toString n else "\"" ++ toString n ++ "\""
  | .application op args => "(" ++ " ".intercalate (op.name :: args.map text) ++ ")"

def total : Calculation → Int
  | .integer n => n
  | .application op args => op.total (args.map total)

/-- The applications from the left to the right, each of them after those among its arguments. -/
def applications : Calculation → List (Operator × List Int)
  | .integer _ => []
  | .application op args => args.flatMap applications ++ [(op, args.map total)]

/-- The fault of the first application that has one. -/
def fault? (t : Calculation) : Option Error :=
  t.applications.findSome? fun (op, args) => op.fault? args

/-- How many levels the calculation nests. -/
def height : Calculation → Nat
  | .integer _ => 1
  | .application _ args => (args.map height).foldr max 1 + 1

/-- What holds of an application if it holds of its arguments holds of all calculations. -/
theorem induct {P : Calculation → Prop} (integer : ∀ n, P (.integer n))
    (application : ∀ op args, (∀ arg ∈ args, P arg) → P (.application op args)) : ∀ t, P t
  | .integer n => integer n
  | .application op args => application op args fun arg _ => induct integer application arg

/-! ## Reading -/

/-- The datum that the text stands for. -/
def datum : Calculation → Datum
  | .integer n => if 0 ≤ n then .number n else .string (toString n)
  | .application op args => .list (.symbol op.name :: args.map datum)

theorem isSymbolText_name (op : Operator) : Grammar.IsSymbolText op.name.toList := by
  cases op
  all_goals exact ⟨by decide +kernel, Text.forall_mem_of_all (by decide +kernel)⟩

theorem denotes_integer (n : Int) :
    Grammar.Denotes (integer n).text.toList (integer n).datum := by
  rw [text, datum]
  cases n with
  | ofNat n =>
    have hNonneg : 0 ≤ Int.ofNat n := Int.natCast_nonneg n
    rw [if_pos hNonneg, if_pos hNonneg, ← Numeral.decimal_eq_toString]
    exact Grammar.denotes_decimal n
  | negSucc n =>
    have hNeg : ¬ 0 ≤ Int.negSucc n := Int.not_le.mpr (Int.negSucc_lt_zero n)
    have hDigits : ∀ ch ∈ (toString (Int.negSucc n)).toList, ch = '-' ∨ ch.isDigit = true := by
      rw [Numeral.toList_toString_negSucc, List.forall_mem_cons]
      exact ⟨.inl rfl, fun ch hch => .inr (Numeral.isDigit_of_mem_toDigits hch)⟩
    rw [if_neg hNeg, if_neg hNeg, String.toList_append, String.toList_append]
    refine Grammar.denotes_string (fun hMem => ?_) (fun hMem => ?_)
    · simpa using hDigits _ hMem
    · simpa using hDigits _ hMem

theorem denotes_text (t : Calculation) : Grammar.Denotes t.text.toList t.datum := by
  induction t using induct with
  | integer n => exact denotes_integer n
  | application op args ih =>
    have hItems : List.Forall₂ (fun v word => Grammar.Denotes word.toList v)
        (.symbol op.name :: args.map datum) (op.name :: args.map text) := by
      refine .cons (Grammar.denotes_symbol (isSymbolText_name op)) ?_
      rw [List.forall₂_map_left_iff, List.forall₂_map_right_iff, List.forall₂_same]
      exact ih
    have hText : (application op args).text.toList =
        '(' :: (Datum.unwords (op.name :: args.map text)).toList ++ [')'] := by
      rw [text, String.toList_append, String.toList_append]
      rfl
    rw [hText, datum]
    exact .list (Grammar.separated_unwords hItems)

theorem depth_datum (t : Calculation) : t.datum.depth = t.height := by
  induction t using induct with
  | integer n =>
    rw [datum, height]
    split
    · rfl
    · rfl
  | application op args ih =>
    have hArgs : Datum.itemsDepth (args.map datum) = (args.map height).foldr max 1 := by
      induction args with
      | nil => rfl
      | cons arg args ihArgs =>
        rw [List.forall_mem_cons] at ih
        rw [List.map_cons, List.map_cons, List.foldr_cons, Datum.itemsDepth, ih.1, ihArgs ih.2]
    have hOne := Datum.one_le_itemsDepth (args.map datum)
    have hSymbol : (Datum.symbol op.name).depth = 1 := rfl
    rw [datum, height, ← hArgs, Datum.depth, Datum.itemsDepth, hSymbol, Nat.max_eq_right hOne]

/-! ## Arguments -/

/-- The datum that the calculation evaluates to if nothing is wrong with it. -/
def value : Calculation → Datum
  | .integer n => (integer n).datum
  | .application op args => .number (application op args).total

theorem toInteger_value (t : Calculation) : t.value.toInteger = t.total := by
  cases t with
  | application op args => rfl
  | integer n =>
    rw [value, datum, total]
    cases n with
    | ofNat n => rw [if_pos (show 0 ≤ Int.ofNat n from Int.natCast_nonneg n), Datum.toInteger]
    | negSucc n =>
      rw [if_neg (Int.not_le.mpr (Int.negSucc_lt_zero n)), Datum.toInteger,
        LeadingInteger.leadingInteger_toString, Option.getD_some]

theorem wraps_value (t : Calculation) : t.value.wraps = 0 := by
  cases t with
  | application op args => rfl
  | integer n =>
    rw [value, datum]
    split <;> rfl

/-! ## Faults -/

theorem fault?_application (op : Operator) (args : List Calculation) :
    (application op args).fault? = (args.findSome? fault?).or (op.fault? (args.map total)) := by
  have hArgs : ∀ args : List Calculation,
      (args.flatMap applications).findSome? (fun (op, args) => op.fault? args) =
        args.findSome? fault? := by
    intro args
    induction args with
    | nil => rfl
    | cons arg args ih =>
      rw [List.flatMap_cons, List.findSome?_append, ih, List.findSome?_cons, fault?]
      cases arg.applications.findSome? fun (op, args) => op.fault? args with
      | none => rfl
      | some e => rfl
  rw [fault?, applications, List.findSome?_append, hArgs, List.findSome?_singleton]

/-! ## Evaluation -/

theorem form_application (op : Operator) (args : List Datum) :
    (Datum.list (.symbol op.name :: args)).form = .application op.name args := by
  have hName : op.name ≠ "quote" := by cases op <;> decide
  match args with
  | [] => rfl
  | [arg] => exact if_neg hName
  | _ :: _ :: _ => rfl

/-- The first fault among the arguments is the one that counts. -/
theorem mapM_args {f : Datum → Except Error Datum} {args : List Calculation}
    (h : ∀ arg ∈ args, f arg.datum = orFault arg.fault? arg.value) :
    (args.map datum).mapM f = orFault (args.findSome? fault?) (args.map value) := by
  induction args with
  | nil => rfl
  | cons arg args ih =>
    rw [List.forall_mem_cons] at h
    rw [List.map_cons, List.mapM_cons, h.1, ih h.2, List.findSome?_cons]
    cases arg.fault? with
    | some e => rfl
    | none =>
      cases args.findSome? fault? with
      | some e => rfl
      | none => rfl

theorem result_evaluate_integer (n : Int) (levels : Nat) :
    (evaluateWithin (levels + 1) (integer n).datum).result =
      orFault (integer n).fault? (integer n).value := by
  have hForm : (integer n).datum.form = .constant := by
    rw [datum]
    split
    · rfl
    · rfl
  have hFault : (integer n).fault? = none := by
    rw [fault?, applications, List.findSome?_nil]
  rw [evaluateWithin, hForm, hFault]
  rfl

theorem result_evaluate_application {op : Operator} {args : List Calculation} {levels : Nat}
    (h : ∀ arg ∈ args, (evaluateWithin levels arg.datum).result = orFault arg.fault? arg.value) :
    (evaluateWithin (levels + 1) (application op args).datum).result =
      orFault (application op args).fault? (application op args).value := by
  have hTotals : (args.map value).map Datum.toInteger = args.map total := by
    rw [List.map_map]
    exact List.map_congr_left fun arg _ => toInteger_value arg
  have hWraps : ∀ v ∈ args.map value, v.wraps ≤ levels := by
    simp [wraps_value]
  rw [datum, evaluateWithin, form_application, fault?_application, value, total]
  show ((args.map datum).mapM (evaluateWithin levels) >>= fun values =>
    (applyWithin levels op.name values).mapError Error.inEvaluation).result = _
  rw [Traced.bind_result, Traced.mapM_result, mapM_args h]
  cases args.findSome? fault? with
  | some e => rfl
  | none =>
    show ((applyWithin levels op.name (args.map value)).mapError Error.inEvaluation).result = _
    rw [applyWithin_inEvaluation hWraps, applyUnlimited, applyBy_name, op.fold_eq, hTotals, Option.none_or]

theorem result_evaluate (t : Calculation) {levels : Nat} (h : t.datum.depth ≤ levels) :
    (evaluateWithin levels t.datum).result = orFault t.fault? t.value := by
  induction t using induct generalizing levels with
  | integer n =>
    cases levels with
    | zero => exact absurd h (Nat.not_le.mpr (Grammar.one_le_depth _))
    | succ levels => exact result_evaluate_integer n levels
  | application op args ih =>
    cases levels with
    | zero => exact absurd h (Nat.not_le.mpr (Grammar.one_le_depth _))
    | succ levels =>
      rw [datum, Datum.depth, Datum.itemsDepth, Nat.add_le_add_iff_right, Nat.max_le] at h
      have hArgs := (Datum.itemsDepth_le_iff.mp h.2).2
      exact result_evaluate_application fun arg hArg =>
        ih arg hArg (hArgs _ (List.mem_map_of_mem hArg))

/-- A text that stands for a datum is read as the datum. -/
theorem read_of_denotes {levels : Nat} {name source : String} {v : Datum} (h : Grammar.Denotes source.toList v)
    (hDepth : v.depth ≤ levels) : readWithin levels name source = pure v := by
  rw [readWithin, Grammar.run_whole_iff.mpr ⟨h, hDepth⟩]

/-- A calculation, written as a text and run, gives the decimal text of its total, or the fault of its
first application that has one, with all limits that the calculation is not too high for. -/
theorem run_calculation (session : Session) (limits : Limits) (op : Operator) (args : List Calculation)
    (hReading : (application op args).height ≤ limits.reading)
    (hEvaluation : (application op args).height ≤ limits.evaluation) :
    (session.run limits (application op args).text).result =
      orFault (application op args).fault? (toString (application op args).total) := by
  rw [← depth_datum] at hReading hEvaluation
  have hRead : session.read limits (application op args).text = pure (application op args).datum :=
    read_of_denotes (denotes_text _) hReading
  rw [Session.run, Session.evaluate, hRead, pure_bind, Traced.bind_result, result_evaluate _ hEvaluation]
  cases (application op args).fault? with
  | some e => rfl
  | none =>
    obtain ⟨levels, hLevels⟩ := Nat.exists_eq_add_of_lt limits.printing_pos
    show Datum.printWithin limits.printing (.number (application op args).total) = _
    rw [hLevels, ← Numeral.decimal_eq_toString]
    rfl

/-- A negative total of negative integers, and a division by zero before an application to nothing. -/
theorem run_calculation_negative :
    (Session.run ⟨"lisp"⟩ .standard "(- (* 7 \"-3\") (mod \"-7\" 2))").result = .ok "-22" ∧
      (Session.run ⟨"lisp"⟩ .standard "(+ (/ 1 0) (-))").result = .error (.divisionByZero "/") := by
  have hTotal := run_calculation ⟨"lisp"⟩ .standard .subtract
    [.application .multiply [.integer 7, .integer (-3)],
      .application .modulo [.integer (-7), .integer 2]]
    (by simp [height, Limits.standard]) (by simp [height, Limits.standard])
  have hFault := run_calculation ⟨"lisp"⟩ .standard .add
    [.application .divide [.integer 1, .integer 0], .application .subtract []]
    (by simp [height, Limits.standard]) (by simp [height, Limits.standard])
  simp only [text, fault?, applications, total, List.map_cons, List.map_nil, List.flatMap_cons,
    List.flatMap_nil] at hTotal hFault
  exact ⟨hTotal, hFault⟩

end Calculation

end MiniScheme
