import MiniScheme.Evaluation.Evaluate
import MiniScheme.Proofs.Arithmetic.Operator
import MiniScheme.Proofs.Datum.Printed

/-!
# The values of forms

A quotation has the quoted datum for its value, whatever it is. All other forms that have a value have a
number, a string or a boolean, because an operator gives nothing else; such a value stands for itself and has
a printed form.
-/

namespace MiniScheme

/-! ## Forms by their shape -/

/-- The kinds of data that stand for themselves. -/
def constantKinds : List Datum.Kind := [.number, .string, .bool]

theorem Datum.eq_of_form_quotation {datum x : Datum} (h : datum.form = .quotation x) :
    datum = .list [.symbol "quote", x] := by
  revert h
  fun_cases Datum.form datum with
  | case5 quoted =>
    intro h
    cases h
    rfl
  | _ =>
    intro h
    cases h

theorem Datum.eq_of_form_application {datum : Datum} {operator : String} {args : List Datum}
    (h : datum.form = .application operator args) : datum = .list (.symbol operator :: args) := by
  revert h
  fun_cases Datum.form datum with
  | case6 name arg | case7 name args =>
    intro h
    cases h
    rfl
  | _ =>
    intro h
    cases h

theorem Datum.kind_of_form_constant {datum : Datum} (h : datum.form = .constant) :
    datum.kind ∈ constantKinds := by
  revert h
  fun_cases Datum.form datum with
  | case1 | case2 | case3 => simp [Datum.kind, constantKinds]
  | _ =>
    intro h
    cases h

theorem Operator.exists_number_of_fold {op : Operator} {integer : Datum → Except Error Int} {args : List Datum}
    {v : Datum} (h : op.fold integer args = .ok v) : ∃ n, v = .number n := by
  cases args with
  | nil => cases h
  | cons first others =>
    rw [fold] at h
    generalize op.foldIntegers integer first others = total at h
    cases total with
    | ok n =>
      cases h
      exact ⟨n, rfl⟩
    | error e => cases e <;> cases h

theorem kind_of_applyBy {integer : Datum → Except Error Int} {name : String} {args : List Datum} {v : Datum}
    (h : (applyBy integer name args).result = .ok v) : v.kind ∈ constantKinds := by
  unfold applyBy at h
  generalize Operator.ofName? name = operator at h
  cases operator with
  | none =>
    cases h
    simp [constantKinds, Datum.kind]
  | some op =>
    obtain ⟨n, rfl⟩ := Operator.exists_number_of_fold h
    simp [constantKinds, Datum.kind]

/-- Where all integers are reached, evaluation has no error of its own to report. -/
theorem applyUnlimited_inEvaluation (name : String) (args : List Datum) :
    (applyUnlimited name args).mapError Error.inEvaluation = applyUnlimited name args := by
  rw [applyUnlimited, applyBy]
  cases Operator.ofName? name with
  | none => rfl
  | some op =>
    show Traced.mk _ ((op.fold _ args).mapError Error.inEvaluation) = Traced.mk _ (op.fold _ args)
    rw [op.fold_eq]
    cases hFault : op.fault? (args.map Datum.toInteger) with
    | none => rfl
    | some e => rcases Operator.eq_of_fault? hFault with rfl | rfl <;> rfl

theorem applyWithin_inEvaluation {levels : Nat} {args : List Datum} (h : ∀ arg ∈ args, arg.wraps ≤ levels)
    (name : String) :
    (applyWithin levels name args).mapError Error.inEvaluation = applyUnlimited name args := by
  rw [applyWithin_of_wraps h, applyUnlimited_inEvaluation]

/-- The value of a form other than a quotation stands for itself. -/
theorem kind_of_evaluate {levels : Nat} {datum v : Datum}
    (hForm : ∀ x, datum ≠ .list [.symbol "quote", x])
    (h : (evaluateWithin levels datum).result = .ok v) : v.kind ∈ constantKinds := by
  cases levels with
  | zero => cases h
  | succ levels =>
    rw [evaluateWithin] at h
    generalize hShape : datum.form = shape at h
    cases shape with
    | constant =>
      cases h
      exact Datum.kind_of_form_constant hShape
    | quotation x => exact absurd (Datum.eq_of_form_quotation hShape) (hForm x)
    | application operator args =>
      replace h : (args.mapM (evaluateWithin levels) >>= fun values =>
        (applyWithin levels operator values).mapError Error.inEvaluation).result = .ok v := h
      rw [Traced.bind_result] at h
      obtain ⟨values, -, hApply⟩ := exists_of_bind_ok h
      exact kind_of_applyBy (mapError_eq_ok.mp hApply)
    | reference name => cases h
    | malformed => cases h

theorem evaluate_quotation {levels : Nat} (h : 0 < levels) (x : Datum) :
    evaluateWithin levels (.list [.symbol "quote", x]) = pure x := by
  obtain ⟨levels, rfl⟩ := Nat.exists_eq_add_of_lt h
  rw [evaluateWithin]
  rfl

end MiniScheme
