import MiniScheme.Datum.Printed
import MiniScheme.Evaluation.Evaluate
import MiniScheme.Nesting
import MiniScheme.Read

/-!
# Sessions

A session reads, evaluates and prints single expressions. It holds nothing but the name under which
sources are reported, so no expression depends on an earlier one.
-/

namespace MiniScheme

structure Session where
  /-- The name of the source in messages. -/
  sourceName : String

namespace Session

/-- The expression at the start of a source. -/
def read (session : Session) (limits : Limits) (source : String) : Traced Datum :=
  readWithin limits.reading session.sourceName source

/-- The value of the expression at the start of a source. -/
def evaluate (session : Session) (limits : Limits) (source : String) : Traced Datum := do
  let datum ← session.read limits source
  evaluateWithin limits.evaluation datum

/-- The printed value of the expression at the start of a source. -/
def run (session : Session) (limits : Limits) (source : String) : Traced String := do
  let value ← session.evaluate limits source
  Traced.ofExcept (value.printWithin limits.printing)

end Session

end MiniScheme
