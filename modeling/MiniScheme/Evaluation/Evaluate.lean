import MiniScheme.Arithmetic.Operator
import MiniScheme.Evaluation.Form

/-!
# Evaluation

There are no bindings. The arguments of an application are evaluated from the left to the right before the
operator is applied, and nothing inside a quotation is evaluated. An operator goes down into its arguments
with the levels that are left; if they are used up there, the form nests too deeply.
-/

namespace MiniScheme

/-- The error of an operator as evaluation reports it. -/
def Error.inEvaluation : Error → Error
  | .recursionTooDeep => .evaluationTooDeep
  | e => e

/-- The value of a form of at most the given number of levels. -/
def evaluateWithin : Nat → Datum → Traced Datum
  | 0, _ => Traced.fail .evaluationTooDeep
  | levels + 1, datum =>
    match datum.form with
    | .constant => pure datum
    | .quotation quoted => pure quoted
    | .application operator args => do
      let values ← args.mapM (evaluateWithin levels)
      (applyWithin levels operator values).mapError Error.inEvaluation
    | .reference name => Traced.fail (.unboundSymbol name)
    | .malformed => Traced.fail (.malformedForm datum.kind)

end MiniScheme
