import MiniScheme.Arithmetic.LeadingInteger
import MiniScheme.Trace

/-!
# Operators

Seven operators on integers. Each folds its arguments from the left; an argument that is no number counts
as the integer it can be taken for, or zero. That integer is looked for inside lists of one item, down to a
number of levels, and not before the fold comes to the argument. Division rounds down, with a remainder of the
divisor's sign; the quotient is cut off toward zero, with a remainder of the dividend's sign.
-/

namespace MiniScheme

/-! ## Arguments -/

/-- The integer that a datum counts as, inside at most the given number of lists. -/
def Datum.toIntegerWithin (levels : Nat) (v : Datum) : Except Error Int :=
  match v with
  | .number n => .ok n
  | .string s => .ok ((leadingInteger s).getD 0)
  | .list [item] =>
    match levels with
    | 0 => .error .recursionTooDeep
    | levels + 1 => item.toIntegerWithin levels
  | _ => .ok 0
termination_by structural v

/-! ## The two divisions -/

namespace Integer

/-- The quotient rounded down. -/
def floorQuotient (a b : Int) : Except Error Int :=
  if b = 0 then .error .zeroDivisor else .ok (a.fdiv b)

/-- The remainder of `floorQuotient`. -/
def modulo (a b : Int) : Except Error Int :=
  if b = 0 then .error .zeroDivisor else .ok (a.fmod b)

/-- The quotient cut off toward zero: that of the absolute values, negated if the signs differ. -/
def quotient (a b : Int) : Except Error Int := do
  let q ← floorQuotient a.natAbs b.natAbs
  return if a < 0 ↔ b < 0 then q else -q

/-- The remainder of `quotient`. -/
def remainder (a b : Int) : Except Error Int := do
  let q ← quotient a b
  return a - b * q

end Integer

/-! ## Operators -/

inductive Operator where
  | add | subtract | multiply | divide | modulo | quotient | remainder
deriving DecidableEq, Repr

namespace Operator

/-- The operators in the order in which they are listed. -/
def all : List Operator :=
  [.add, .subtract, .multiply, .divide, .modulo, .quotient, .remainder]

/-- The name of an operator in texts. -/
def name : Operator → String
  | .add => "+"
  | .subtract => "-"
  | .multiply => "*"
  | .divide => "/"
  | .modulo => "mod"
  | .quotient => "quotient"
  | .remainder => "remainder"

/-- The operator of a name. -/
def ofName? (name : String) : Option Operator :=
  all.find? fun op => op.name == name

/-- One step of the fold. -/
def combine : Operator → Int → Int → Except Error Int
  | .add, a, b => .ok (a + b)
  | .subtract, a, b => .ok (a - b)
  | .multiply, a, b => .ok (a * b)
  | .divide, a, b => Integer.floorQuotient a b
  | .modulo, a, b => Integer.modulo a b
  | .quotient, a, b => Integer.quotient a b
  | .remainder, a, b => Integer.remainder a b

/-- The integers of one or more data taken together, each one when the fold comes to it. -/
def foldIntegers (op : Operator) (integer : Datum → Except Error Int) (first : Datum) (others : List Datum) :
    Except Error Int := do
  let start ← integer first
  others.foldlM (fun n arg => do op.combine n (← integer arg)) start

/-- The outcome of a fold as a datum, with the operator named where it met a zero divisor. -/
def answer (op : Operator) : Except Error Int → Except Error Datum
  | .ok n => .ok (.number n)
  | .error .zeroDivisor => .error (.divisionByZero op.name)
  | .error e => .error e

/-- The operator applied to one or more data, by the integers that they count as. -/
def fold (op : Operator) (integer : Datum → Except Error Int) : List Datum → Except Error Datum
  | [] => .error (.noArguments op.name)
  | first :: others => op.answer (op.foldIntegers integer first others)

end Operator

/-- The operator of a name applied to data, by the integers that they count as. A name that is no operator's
gives false. -/
def applyBy (integer : Datum → Except Error Int) (name : String) (args : List Datum) : Traced Datum :=
  match Operator.ofName? name with
  | none => do
    Traced.record (.unknownOperator name)
    return .bool false
  | some op => do
    Traced.record (.applying name args.length)
    Traced.ofExcept (op.fold integer args)

/-- The operator of a name applied to data that nest in at most the given number of lists. -/
def applyWithin (levels : Nat) (name : String) (args : List Datum) : Traced Datum :=
  applyBy (Datum.toIntegerWithin levels) name args

end MiniScheme
