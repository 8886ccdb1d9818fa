import Mathlib.Data.List.TakeWhile
import MiniScheme.Arithmetic.Operator

/-!
# Operators on integers

What the operators compute, over all integers, and when they cannot compute it. An operator has a total for
every list of integers, but the total counts only if there is no fault: arguments must not be missing, and
an operator that divides must not meet a zero after its first argument. The quotient that is taken of
absolute values and given its sign afterwards is the one cut off toward zero.

A datum counts as its integer with as many levels as there are lists of one item around it (`wraps`), and with
fewer it is too deep (`toIntegerWithin_eq`). Since the fold asks for one integer after the other, it fails at
whatever it comes to first, a zero divisor or a datum that is too deep (`foldlM_integerIf`).
-/

namespace MiniScheme

/-- The fault, or else the value. -/
def orFault {α : Type} (fault : Option Error) (a : α) : Except Error α :=
  match fault with
  | none => .ok a
  | some e => .error e

/-! ## The integers of data -/

namespace Datum

/-- The integer that a datum counts as, in any number of lists. -/
def toInteger : Datum → Int
  | .number n => n
  | .string s => (leadingInteger s).getD 0
  | .list [item] => item.toInteger
  | _ => 0

/-- The number of lists of one item that stand one in the other at the outside of a datum. -/
def wraps : Datum → Nat
  | .list [item] => item.wraps + 1
  | _ => 0

/-- The integer of a datum that passes the test; any other datum is too deep. -/
def integerIf (p : Datum → Bool) (v : Datum) : Except Error Int :=
  if p v then .ok v.toInteger else .error .recursionTooDeep

theorem toIntegerWithin_eq (levels : Nat) (v : Datum) :
    v.toIntegerWithin levels = v.integerIf (·.wraps ≤ levels) := by
  induction levels generalizing v with
  | zero =>
    cases v with
    | list items => rcases items with _ | ⟨item, _ | ⟨other, items⟩⟩ <;> rfl
    | _ => rfl
  | succ levels ih =>
    cases v with
    | list items =>
      rcases items with _ | ⟨item, _ | ⟨other, items⟩⟩
      · rfl
      · rw [toIntegerWithin, ih]
        simp [integerIf, wraps, toInteger]
      · rfl
    | _ => rfl

theorem toIntegerWithin_of_le {levels : Nat} {v : Datum} (h : v.wraps ≤ levels) :
    v.toIntegerWithin levels = .ok v.toInteger := by
  rw [toIntegerWithin_eq, integerIf, if_pos (decide_eq_true h)]

end Datum

/-! ## The quotient cut off toward zero -/

namespace Integer

/-- Absolute values are divided alike in both ways; the sign is then that of the quotient. -/
theorem tdiv_eq_of_natAbs {a b : Int} (hb : b ≠ 0) :
    (if a < 0 ↔ b < 0 then (a.natAbs : Int).fdiv b.natAbs else -(a.natAbs : Int).fdiv b.natAbs) =
      a.tdiv b := by
  rw [Int.fdiv_eq_tdiv_of_nonneg (Int.natCast_nonneg _) (Int.natCast_nonneg _)]
  obtain ⟨m, rfl | rfl⟩ := a.eq_nat_or_neg
  · obtain ⟨n, rfl | rfl⟩ := b.eq_nat_or_neg
    · rw [if_pos (by omega)]
      simp
    · rw [if_neg (by omega)]
      simp
  · -- A dividend of zero is met here too; its quotient is zero with either sign.
    by_cases hm : m = 0
    · simp [hm]
    · obtain ⟨n, rfl | rfl⟩ := b.eq_nat_or_neg
      · rw [if_neg (by omega)]
        simp
      · rw [if_pos (by omega)]
        simp

theorem quotient_eq (a b : Int) :
    quotient a b = if b = 0 then .error .zeroDivisor else .ok (a.tdiv b) := by
  by_cases hb : b = 0
  · rw [hb]
    rfl
  · rw [if_neg hb, ← tdiv_eq_of_natAbs hb, quotient, floorQuotient, if_neg (by omega)]
    rfl

theorem remainder_eq (a b : Int) :
    remainder a b = if b = 0 then .error .zeroDivisor else .ok (a.tmod b) := by
  rw [remainder, quotient_eq]
  by_cases hb : b = 0
  · rw [if_pos hb, if_pos hb]
    rfl
  · rw [if_neg hb, if_neg hb, Int.tmod_def]
    rfl

end Integer

/-! ## Folds -/

namespace Operator

/-- What an operator makes of two integers. -/
def meaning : Operator → Int → Int → Int
  | .add => (· + ·)
  | .subtract => (· - ·)
  | .multiply => (· * ·)
  | .divide => Int.fdiv
  | .modulo => Int.fmod
  | .quotient => Int.tdiv
  | .remainder => Int.tmod

/-- Whether the operator divides by its arguments after the first. -/
def divides : Operator → Bool
  | .add | .subtract | .multiply => false
  | .divide | .modulo | .quotient | .remainder => true

/-- The integers taken together from the left. -/
def total (op : Operator) : List Int → Int
  | [] => 0
  | first :: others => others.foldl op.meaning first

/-- Why the operator cannot be applied to the integers. -/
def fault? (op : Operator) : List Int → Option Error
  | [] => some (.noArguments op.name)
  | _ :: others =>
    if op.divides = true ∧ 0 ∈ others then some (.divisionByZero op.name) else none

theorem combine_eq (op : Operator) (a b : Int) :
    op.combine a b =
      if op.divides = true ∧ b = 0 then .error .zeroDivisor else .ok (op.meaning a b) := by
  cases op
  all_goals
    simp [combine, divides, meaning, Integer.quotient_eq, Integer.remainder_eq,
      Integer.floorQuotient, Integer.modulo]

/-- The fold goes through unless it comes to a zero that it divides by, or to a datum that is too deep before
that. -/
theorem foldlM_integerIf (op : Operator) (p : Datum → Bool) (start : Int) (others : List Datum) :
    others.foldlM (fun n arg => do op.combine n (← arg.integerIf p)) start =
      if op.divides = true ∧ 0 ∈ (others.takeWhile p).map Datum.toInteger then .error .zeroDivisor
      else if others.all p = true then .ok ((others.map Datum.toInteger).foldl op.meaning start)
      else .error .recursionTooDeep := by
  induction others generalizing start with
  | nil => simp [pure, Except.pure]
  | cons arg others ih =>
    rw [List.foldlM_cons]
    by_cases hArg : p arg = true
    · rw [Datum.integerIf, if_pos hArg]
      show op.combine start arg.toInteger >>= _ = _
      rw [combine_eq, List.takeWhile_cons_of_pos hArg, List.map_cons]
      by_cases hZero : op.divides = true ∧ arg.toInteger = 0
      · obtain ⟨hDivides, hZero⟩ := hZero
        simp [hDivides, hZero, bind, Except.bind]
      · rw [if_neg hZero]
        show others.foldlM _ (op.meaning start arg.toInteger) = _
        have hLater : (op.divides = true ∧ 0 ∈ arg.toInteger :: (others.takeWhile p).map Datum.toInteger) ↔
            (op.divides = true ∧ 0 ∈ (others.takeWhile p).map Datum.toInteger) := by
          refine and_congr_right fun hDivides => ?_
          have hNonzero : 0 ≠ arg.toInteger := fun hEq => hZero ⟨hDivides, hEq.symm⟩
          rw [List.mem_cons, or_iff_right hNonzero]
        rw [ih, List.all_cons, hArg, Bool.true_and, List.map_cons, List.foldl_cons]
        simp only [hLater]
    · rw [Datum.integerIf, if_neg hArg, List.takeWhile_cons_of_neg hArg]
      simp [hArg, bind, Except.bind]

/-- An operator applied to one or more data: what it comes to first decides how it fails. -/
theorem fold_cons_integerIf (op : Operator) (p : Datum → Bool) (first : Datum) (others : List Datum) :
    op.fold (Datum.integerIf p) (first :: others) =
      if op.divides = true ∧ 0 ∈ ((first :: others).takeWhile p).tail.map Datum.toInteger then
        .error (.divisionByZero op.name)
      else if (first :: others).all p = true then
        .ok (.number (op.total ((first :: others).map Datum.toInteger)))
      else .error .recursionTooDeep := by
  rw [fold, foldIntegers]
  by_cases hFirst : p first = true
  · have hStart : first.integerIf p = .ok first.toInteger := if_pos hFirst
    rw [hStart, List.takeWhile_cons_of_pos hFirst, List.tail_cons, List.all_cons, hFirst, Bool.true_and]
    show op.answer (others.foldlM _ first.toInteger) = _
    rw [foldlM_integerIf, apply_ite op.answer, apply_ite op.answer]
    rfl
  · have hStart : first.integerIf p = .error .recursionTooDeep := if_neg hFirst
    rw [hStart, List.takeWhile_cons_of_neg hFirst]
    simp [hFirst, bind, Except.bind, answer]

/-- With integers for all data, an operator gives their total or its fault. -/
theorem fold_eq (op : Operator) (args : List Datum) :
    op.fold (fun v => .ok v.toInteger) args = orFault (op.fault? (args.map Datum.toInteger))
      (.number (op.total (args.map Datum.toInteger))) := by
  cases args with
  | nil => rfl
  | cons first others =>
    show op.fold (Datum.integerIf fun _ => true) (first :: others) = _
    rw [fold_cons_integerIf, List.takeWhile_eq_self_iff.mpr fun _ _ => rfl, List.tail_cons, List.map_cons,
      fault?]
    have hAll : ((first :: others).all fun _ => true) = true := by simp
    rw [if_pos hAll]
    split <;> rfl

theorem eq_of_fault? {op : Operator} {ns : List Int} {e : Error}
    (h : op.fault? ns = some e) : e = .noArguments op.name ∨ e = .divisionByZero op.name := by
  unfold fault? at h
  split at h
  · cases h
    exact .inl rfl
  · split at h
    · cases h
      exact .inr rfl
    · cases h

theorem ofName?_name (op : Operator) : ofName? op.name = some op := by
  cases op <;> rfl

end Operator

/-! ## Applications -/

/-- Of its arguments, an application sees the integers they count as. -/
theorem applyBy_eq_of_map_eq {integer integer' : Datum → Except Error Int} {args args' : List Datum}
    (h : args'.map integer' = args.map integer) (name : String) :
    applyBy integer' name args' = applyBy integer name args := by
  have hLength : args'.length = args.length := by
    simpa using congrArg List.length h
  have hFold : ∀ op : Operator, op.fold integer' args' = op.fold integer args := by
    intro op
    cases args with
    | nil =>
      obtain rfl := List.map_eq_nil_iff.mp h
      rfl
    | cons first others =>
      obtain ⟨first', others', rfl, hFirst, hOthers⟩ := List.map_eq_cons_iff.mp h
      have hLater := congrArg (fun ns => fun start => ns.foldlM (fun n m => do op.combine n (← m)) start) hOthers
      simp only [List.foldlM_map] at hLater
      rw [Operator.fold, Operator.fold, Operator.foldIntegers, Operator.foldIntegers, hFirst]
      exact congrArg (fun later => op.answer (integer first >>= later)) hLater
  unfold applyBy
  cases Operator.ofName? name with
  | none => rfl
  | some op => simp only [hLength, hFold]

/-- The operator of a name applied to data, each of which counts as its integer. -/
def applyUnlimited (name : String) (args : List Datum) : Traced Datum :=
  applyBy (fun v => .ok v.toInteger) name args

theorem applyWithin_of_wraps {levels : Nat} {args : List Datum} (h : ∀ arg ∈ args, arg.wraps ≤ levels)
    (name : String) : applyWithin levels name args = applyUnlimited name args :=
  applyBy_eq_of_map_eq (List.map_congr_left fun arg hArg => Datum.toIntegerWithin_of_le (h arg hArg)) name

theorem applyBy_name (integer : Datum → Except Error Int) (op : Operator) (args : List Datum) :
    applyBy integer op.name args = ⟨[.applying op.name args.length], op.fold integer args⟩ := by
  rw [applyBy, op.ofName?_name]
  rfl

end MiniScheme
