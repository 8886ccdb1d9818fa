import Mathlib.Algebra.BigOperators.Group.List.Basic
import Mathlib.Algebra.Ring.Int.Defs
import Mathlib.Data.List.Forall2
import MiniScheme.Proofs.Arithmetic.Operator

/-!
# Operators applied to data

What comes of applying a name to data is told from the integers that the data count as: a name that is no
operator's gives false, an operator fails without arguments or with a zero that it divides by, wherever the
zero stands after the first argument, and gives the fold of the integers otherwise
(`application_outcome`). Sums and products do not depend on the order, and no application tells a datum from
the list that holds nothing else. A datum in more lists than there are levels is an error of its own, unless a
zero divisor stands before it.
-/

namespace MiniScheme

/-- The application divides by zero: an argument after the first counts as zero, and the name is that of an
operator that divides. -/
def MeetsZeroDivisor (name : String) (args : List Datum) : Prop :=
  name ∈ ["/", "mod", "quotient", "remainder"] ∧ ∃ arg ∈ args.tail, arg.toInteger = 0

instance (name : String) (args : List Datum) : Decidable (MeetsZeroDivisor name args) :=
  inferInstanceAs (Decidable (_ ∧ _))

namespace Datum

/-- A datum inside a number of lists with one item. -/
def wrapped (v : Datum) : Nat → Datum
  | 0 => v
  | n + 1 => .list [v.wrapped n]

theorem toInteger_wrapped (v : Datum) (n : Nat) : (v.wrapped n).toInteger = v.toInteger := by
  induction n with
  | zero => rfl
  | succ n ih => rw [wrapped, toInteger, ih]

theorem wraps_wrapped (v : Datum) (n : Nat) : (v.wrapped n).wraps = v.wraps + n := by
  induction n with
  | zero => rfl
  | succ n ih => rw [wrapped, wraps, ih, Nat.add_assoc]

/-- As many more levels as there are more lists make up for them. -/
theorem toIntegerWithin_wrapped (levels : Nat) (v : Datum) (n : Nat) :
    (v.wrapped n).toIntegerWithin (levels + n) = v.toIntegerWithin levels := by
  rw [toIntegerWithin_eq, toIntegerWithin_eq, integerIf, integerIf, toInteger_wrapped, wraps_wrapped]
  simp only [Nat.add_le_add_iff_right]

/-- The data before the first that is too deep are all, if none is. -/
theorem takeWhile_wraps {levels : Nat} {args : List Datum} (h : ∀ arg ∈ args, arg.wraps ≤ levels) :
    args.takeWhile (·.wraps ≤ levels) = args :=
  List.takeWhile_eq_self_iff.mpr fun arg hArg => decide_eq_true (h arg hArg)

end Datum

namespace Operator

/-! ## Names and faults -/

theorem ofName?_eq_none {name : String}
    (h : name ∉ ["+", "-", "*", "/", "mod", "quotient", "remainder"]) : ofName? name = none := by
  apply List.find?_eq_none.mpr
  intro op _ hName
  apply h
  rw [← eq_of_beq hName]
  cases op <;> decide

theorem exists_name {name : String}
    (h : name ∈ ["+", "-", "*", "/", "mod", "quotient", "remainder"]) :
    ∃ op : Operator, op.name = name := by
  have hNames : ["+", "-", "*", "/", "mod", "quotient", "remainder"] = all.map Operator.name := rfl
  rw [hNames] at h
  obtain ⟨op, -, hName⟩ := List.mem_map.mp h
  exact ⟨op, hName⟩

theorem divides_iff (op : Operator) :
    op.divides = true ↔ op.name ∈ ["/", "mod", "quotient", "remainder"] := by
  cases op <;> decide

/-! ## Closed forms -/

theorem total_add (ns : List Int) : add.total ns = ns.sum := by
  rw [List.sum_eq_foldl]
  cases ns with
  | nil => rfl
  | cons first others => rw [total, List.foldl_cons, zero_add, meaning]

theorem total_multiply {ns : List Int} (h : ns ≠ []) : multiply.total ns = ns.prod := by
  rw [List.prod_eq_foldl]
  cases ns with
  | nil => exact absurd rfl h
  | cons first others => rw [total, List.foldl_cons, one_mul, meaning]

theorem total_subtract (first : Int) (others : List Int) :
    subtract.total (first :: others) = first - others.sum := by
  rw [total]
  induction others generalizing first with
  | nil => simp
  | cons n others ih =>
    rw [List.foldl_cons, ih, List.sum_cons, ← sub_sub]
    rfl

end Operator

/-! ## Applications -/

section Applications

variable {levels : Nat} {args : List Datum}

theorem result_applyWithin (levels : Nat) (op : Operator) (args : List Datum) :
    (applyWithin levels op.name args).result = op.fold (Datum.toIntegerWithin levels) args := by
  rw [applyWithin, applyBy_name]

theorem result_applyWithin_cons (levels : Nat) (op : Operator) (first : Datum) (others : List Datum) :
    (applyWithin levels op.name (first :: others)).result =
      if MeetsZeroDivisor op.name ((first :: others).takeWhile (·.wraps ≤ levels)) then
        .error (.divisionByZero op.name)
      else if ∀ arg ∈ first :: others, arg.wraps ≤ levels then
        .ok (.number (op.total ((first :: others).map Datum.toInteger)))
      else .error .recursionTooDeep := by
  have hInteger : Datum.toIntegerWithin levels = Datum.integerIf (·.wraps ≤ levels) :=
    funext (Datum.toIntegerWithin_eq levels)
  have hZero : (op.divides = true ∧
      0 ∈ ((first :: others).takeWhile (·.wraps ≤ levels)).tail.map Datum.toInteger) ↔
      MeetsZeroDivisor op.name ((first :: others).takeWhile (·.wraps ≤ levels)) := by
    rw [op.divides_iff, List.mem_map]
    rfl
  have hAll : (first :: others).all (·.wraps ≤ levels) = true ↔ ∀ arg ∈ first :: others, arg.wraps ≤ levels := by
    simp only [List.all_eq_true, decide_eq_true_eq]
  rw [result_applyWithin, hInteger, op.fold_cons_integerIf]
  simp only [hZero, hAll]

/-- Where all integers are reached, a zero divisor is all that can be wrong with one or more arguments. -/
theorem result_applyWithin_of_reached (op : Operator) (hArgs : args ≠ [])
    (hWithin : ∀ arg ∈ args, arg.wraps ≤ levels) :
    (applyWithin levels op.name args).result =
      if MeetsZeroDivisor op.name args then .error (.divisionByZero op.name)
      else .ok (.number (op.total (args.map Datum.toInteger))) := by
  obtain ⟨first, others, rfl⟩ := List.exists_cons_of_ne_nil hArgs
  rw [result_applyWithin_cons, Datum.takeWhile_wraps hWithin, if_pos hWithin]

/-- Where nothing is divided by, there is no zero divisor. -/
theorem result_applyWithin_of_not_divides (levels : Nat) (op : Operator) (h : op.divides = false)
    (hArgs : args ≠ []) :
    (applyWithin levels op.name args).result =
      if ∀ arg ∈ args, arg.wraps ≤ levels then .ok (.number (op.total (args.map Datum.toInteger)))
      else .error .recursionTooDeep := by
  have hNot : ∀ args, ¬ MeetsZeroDivisor op.name args := by
    rintro args ⟨hMem, -⟩
    rw [← op.divides_iff, h] at hMem
    cases hMem
  obtain ⟨first, others, rfl⟩ := List.exists_cons_of_ne_nil hArgs
  rw [result_applyWithin_cons, if_neg (hNot _)]

theorem result_add (levels : Nat) (h : args ≠ []) :
    (applyWithin levels "+" args).result =
      if ∀ arg ∈ args, arg.wraps ≤ levels then .ok (.number (args.map Datum.toInteger).sum)
      else .error .recursionTooDeep := by
  rw [← Operator.total_add]
  exact result_applyWithin_of_not_divides levels .add rfl h

theorem result_multiply (levels : Nat) (h : args ≠ []) :
    (applyWithin levels "*" args).result =
      if ∀ arg ∈ args, arg.wraps ≤ levels then .ok (.number (args.map Datum.toInteger).prod)
      else .error .recursionTooDeep := by
  rw [← Operator.total_multiply (by simpa using h)]
  exact result_applyWithin_of_not_divides levels .multiply rfl h

theorem result_subtract (levels : Nat) (first : Datum) (others : List Datum) :
    (applyWithin levels "-" (first :: others)).result =
      if ∀ arg ∈ first :: others, arg.wraps ≤ levels then
        .ok (.number (first.toInteger - (others.map Datum.toInteger).sum))
      else .error .recursionTooDeep := by
  rw [← Operator.total_subtract]
  exact result_applyWithin_of_not_divides levels .subtract rfl (List.cons_ne_nil _ _)

/-- An operator fails if it has no arguments, and otherwise at the first zero divisor or datum that is too
deep. -/
theorem result_applyWithin_iff (levels : Nat) (op : Operator) (args : List Datum) :
    ((applyWithin levels op.name args).result = .error (.noArguments op.name) ↔ args = []) ∧
    ((applyWithin levels op.name args).result = .error (.divisionByZero op.name) ↔
      MeetsZeroDivisor op.name (args.takeWhile (·.wraps ≤ levels))) ∧
    ((applyWithin levels op.name args).result = .error .recursionTooDeep ↔
      (∃ arg ∈ args, levels < arg.wraps) ∧
        ¬ MeetsZeroDivisor op.name (args.takeWhile (·.wraps ≤ levels))) := by
  cases args with
  | nil =>
    rw [result_applyWithin]
    simp [Operator.fold, MeetsZeroDivisor]
  | cons first others =>
    have hDeep : (∃ arg ∈ first :: others, levels < arg.wraps) ↔
        ¬ ∀ arg ∈ first :: others, arg.wraps ≤ levels := by
      simp only [not_forall, Nat.not_le, exists_prop]
    rw [result_applyWithin_cons, hDeep]
    by_cases hZero : MeetsZeroDivisor op.name ((first :: others).takeWhile (·.wraps ≤ levels))
    · simp [hZero]
    · rw [if_neg hZero]
      by_cases hWithin : ∀ arg ∈ first :: others, arg.wraps ≤ levels
      · rw [if_pos hWithin]
        exact ⟨by simp, iff_of_false (by simp) hZero, iff_of_false (by simp) fun hDeep => hDeep.1 hWithin⟩
      · rw [if_neg hWithin]
        exact ⟨by simp, iff_of_false (by simp) hZero, iff_of_true rfl ⟨hWithin, hZero⟩⟩

end Applications

/-! ## What an application does not see -/

theorem applyWithin_of_wrapped {levels : Nat} {args args' : List Datum}
    (h : List.Forall₂ (fun arg deep => ∃ n, deep = arg.wrapped n) args args')
    (hWithin : ∀ arg ∈ args', arg.wraps ≤ levels) (name : String) :
    applyWithin levels name args' = applyWithin levels name args := by
  refine applyBy_eq_of_map_eq ?_ name
  induction h with
  | nil => rfl
  | cons hArg _ ih =>
    obtain ⟨n, rfl⟩ := hArg
    obtain ⟨hFirst, hOthers⟩ := List.forall_mem_cons.mp hWithin
    have hInner : Datum.wraps _ ≤ levels := (Datum.wraps_wrapped _ n ▸ hFirst).trans' (Nat.le_add_right _ n)
    rw [List.map_cons, List.map_cons, ih hOthers, Datum.toIntegerWithin_of_le hFirst,
      Datum.toIntegerWithin_of_le hInner, Datum.toInteger_wrapped]

theorem applyWithin_map_wrapped (levels n : Nat) (name : String) (args : List Datum) :
    applyWithin (levels + n) name (args.map (·.wrapped n)) = applyWithin levels name args := by
  refine applyBy_eq_of_map_eq ?_ name
  rw [List.map_map]
  exact List.map_congr_left fun arg _ => Datum.toIntegerWithin_wrapped levels arg n

theorem applyWithin_eq_of_result_eq {levels : Nat} (op : Operator) {args args' : List Datum}
    (hLength : args'.length = args.length)
    (h : (applyWithin levels op.name args').result = (applyWithin levels op.name args).result) :
    applyWithin levels op.name args' = applyWithin levels op.name args := by
  rw [result_applyWithin, result_applyWithin] at h
  rw [applyWithin, applyWithin, applyBy_name, applyBy_name, hLength, h]

/-- Sums and products do not depend on the order. -/
theorem applyWithin_of_perm (levels : Nat) {args args' : List Datum} (h : args'.Perm args) :
    applyWithin levels "+" args' = applyWithin levels "+" args ∧
      applyWithin levels "*" args' = applyWithin levels "*" args := by
  rcases eq_or_ne args [] with rfl | hArgs
  · rw [h.eq_nil]
    exact ⟨rfl, rfl⟩
  · have hArgs' : args' ≠ [] := by
      rintro rfl
      exact hArgs h.symm.eq_nil
    have hIntegers := h.map Datum.toInteger
    have hWithin : (∀ arg ∈ args', arg.wraps ≤ levels) ↔ ∀ arg ∈ args, arg.wraps ≤ levels := by
      simp only [h.mem_iff]
    constructor
    · apply applyWithin_eq_of_result_eq .add h.length_eq
      show (applyWithin levels "+" args').result = (applyWithin levels "+" args).result
      rw [result_add levels hArgs', result_add levels hArgs, hIntegers.sum_eq]
      simp only [hWithin]
    · apply applyWithin_eq_of_result_eq .multiply h.length_eq
      show (applyWithin levels "*" args').result = (applyWithin levels "*" args).result
      rw [result_multiply levels hArgs', result_multiply levels hArgs, hIntegers.prod_eq]
      simp only [hWithin]

/-- A datum counts as its integer if there are levels for the lists around it. For a name that is no operator's
the outcome is false. An operator fails for want of arguments, or else at what it comes to first, a zero divisor
or a datum that is too deep. Where no datum is too deep, it fails exactly if there are no arguments or a zero
divisor is among them, and otherwise gives its fold of the integers that the arguments count as, from the left.
For addition, multiplication and subtraction the fold is a sum, a product and a difference; the order of what is
added or multiplied does not count, and neither do lists around single arguments. -/
theorem application_outcome (levels : Nat) (name : String) (args : List Datum) :
    (∀ v : Datum, v.toIntegerWithin levels =
      if v.wraps ≤ levels then .ok v.toInteger else .error .recursionTooDeep) ∧
    (name ∉ ["+", "-", "*", "/", "mod", "quotient", "remainder"] →
      (applyWithin levels name args).result = .ok (.bool false)) ∧
    (name ∈ ["+", "-", "*", "/", "mod", "quotient", "remainder"] →
      ((applyWithin levels name args).result = .error (.noArguments name) ↔ args = []) ∧
      ((applyWithin levels name args).result = .error (.divisionByZero name) ↔
        MeetsZeroDivisor name (args.takeWhile (·.wraps ≤ levels))) ∧
      ((applyWithin levels name args).result = .error .recursionTooDeep ↔
        (∃ arg ∈ args, levels < arg.wraps) ∧
          ¬ MeetsZeroDivisor name (args.takeWhile (·.wraps ≤ levels)))) ∧
    ((∀ arg ∈ args, arg.wraps ≤ levels) →
      (name ∈ ["+", "-", "*", "/", "mod", "quotient", "remainder"] →
        ∃ op : Operator, op.name = name ∧
          ((applyWithin levels name args).result = .error (.divisionByZero name) ↔
            MeetsZeroDivisor name args) ∧
          ∀ first others, args = first :: others → ¬ MeetsZeroDivisor name args →
            (applyWithin levels name args).result =
              .ok (.number ((others.map Datum.toInteger).foldl op.meaning first.toInteger))) ∧
      (args ≠ [] →
        (applyWithin levels "+" args).result = .ok (.number (args.map Datum.toInteger).sum) ∧
        (applyWithin levels "*" args).result = .ok (.number (args.map Datum.toInteger).prod)) ∧
      (∀ first others, args = first :: others → (applyWithin levels "-" args).result =
        .ok (.number (first.toInteger - (others.map Datum.toInteger).sum)))) ∧
    (∀ args', args'.Perm args →
      applyWithin levels "+" args' = applyWithin levels "+" args ∧
      applyWithin levels "*" args' = applyWithin levels "*" args) ∧
    (∀ args', List.Forall₂ (fun arg deep => ∃ n, deep = arg.wrapped n) args args' →
      (∀ arg ∈ args', arg.wraps ≤ levels) → applyWithin levels name args' = applyWithin levels name args) ∧
    ∀ n, applyWithin (levels + n) name (args.map (·.wrapped n)) = applyWithin levels name args := by
  refine ⟨?_, ?_, ?_, fun hWithin => ⟨?_, ?_, ?_⟩, fun args' hPerm => applyWithin_of_perm levels hPerm,
    fun args' hDeep hWithin => applyWithin_of_wrapped hDeep hWithin name,
    fun n => applyWithin_map_wrapped levels n name args⟩
  · intro v
    rw [Datum.toIntegerWithin_eq, Datum.integerIf]
    simp only [decide_eq_true_eq]
  · intro hName
    rw [applyWithin, applyBy, Operator.ofName?_eq_none hName]
    rfl
  · intro hName
    obtain ⟨op, rfl⟩ := Operator.exists_name hName
    exact result_applyWithin_iff levels op args
  · intro hName
    obtain ⟨op, rfl⟩ := Operator.exists_name hName
    obtain ⟨-, hZero, -⟩ := result_applyWithin_iff levels op args
    rw [Datum.takeWhile_wraps hWithin] at hZero
    refine ⟨op, rfl, hZero, ?_⟩
    rintro first others rfl hNot
    rw [result_applyWithin_of_reached op (List.cons_ne_nil _ _) hWithin, if_neg hNot]
    rfl
  · intro hArgs
    rw [result_add levels hArgs, result_multiply levels hArgs, if_pos hWithin, if_pos hWithin]
    exact ⟨rfl, rfl⟩
  · rintro first others rfl
    rw [result_subtract, if_pos hWithin]

/-- A boolean counts as zero, so an operator that divides fails because of it, though it comes last. With one
level it does not come that far. -/
theorem application_outcome_boolean :
    let args := [Datum.string "12 monkeys", .list [.list [.number 5]], .bool true]
    MeetsZeroDivisor "mod" args ∧ (applyWithin 2 "mod" args).result = .error (.divisionByZero "mod") ∧
    (applyWithin 2 "-" args).result = .ok (.number (12 - 5)) ∧
    applyWithin 5 "mod" (args.map (·.wrapped 3)) = applyWithin 2 "mod" args ∧
    (applyWithin 1 "mod" args).result = .error .recursionTooDeep := by
  intro args
  have hZero : MeetsZeroDivisor "mod" args := ⟨by decide, .bool true, by simp [args], rfl⟩
  have hWithin : ∀ arg ∈ args, arg.wraps ≤ 2 := by
    simp [args, Datum.wraps]
  obtain ⟨-, -, -, hReached, -, -, hWrapped⟩ := application_outcome 2 "mod" args
  obtain ⟨hOperator, -, hSubtract⟩ := hReached hWithin
  obtain ⟨op, -, hFault, -⟩ := hOperator (by decide)
  obtain ⟨-, -, hFails, -⟩ := application_outcome 1 "mod" args
  obtain ⟨-, -, hDeep⟩ := hFails (by decide)
  refine ⟨hZero, hFault.mpr hZero, hSubtract _ _ rfl, hWrapped 3, hDeep.mpr ⟨?_, by decide⟩⟩
  exact ⟨.list [.list [.number 5]], by simp [args], by decide⟩

end MiniScheme
