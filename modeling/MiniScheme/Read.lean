import MiniScheme.Grammar.Expression
import MiniScheme.Text.Place
import MiniScheme.Trace

/-!
# Reading one expression

The expression at the start of a text is read and what follows it is left alone. A text that does not match
is no failure: it is read as a string that says where and why.
-/

namespace MiniScheme

/-- The string that a text is read as when it does not match. -/
def noMatchText (name : String) (place : Text.Place) (reason : String) : String :=
  "No match: \"" ++ name ++ "\" (line " ++ Numeral.decimal place.line ++ ", column "
    ++ Numeral.decimal place.column ++ "):\n" ++ reason

/-- Reading that stopped at an offset of the source with this name. -/
def noMatch (name : String) (source : List Char) (offset : Nat) (reason : String) : Traced Datum := do
  Traced.record (.readFailed offset reason)
  return .string (noMatchText name (.ofOffset source offset) reason)

/-- The expression at the start of a source, of at most the given number of levels. -/
def readWithin (levels : Nat) (name source : String) : Traced Datum :=
  match (Grammar.expression levels).run (.start source.toList) with
  | .ok datum _ => pure datum
  | .mismatch m _ => noMatch name source.toList m.position m.describe
  | .abort .readingTooDeep next =>
    noMatch name source.toList next.offset Error.readingTooDeep.message
  | .abort e _ => Traced.fail e

end MiniScheme
