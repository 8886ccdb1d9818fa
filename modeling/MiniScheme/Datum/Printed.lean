import MiniScheme.Error

/-!
# Printed form

Symbols, numbers, strings, booleans, lists and dotted lists have a printed form. Strings are put in double
quotes as they are, so not every printed form reads back. Data of the other kinds are refused; the first
one from the left counts.
-/

namespace MiniScheme.Datum

/-- Words with single spaces between them. -/
def unwords (words : List String) : String :=
  " ".intercalate words

/-- The printed form of a datum of at most the given number of levels. -/
def printWithin : Nat → Datum → Except Error String
  | 0, _ => .error .printingTooDeep
  | levels + 1, datum =>
    match datum with
    | .string s => .ok ("\"" ++ s ++ "\"")
    | .symbol name => .ok name
    | .number n => .ok (Numeral.decimal n)
    | .bool true => .ok "#t"
    | .bool false => .ok "#f"
    | .list items => do
      let words ← items.mapM (printWithin levels)
      return "(" ++ unwords words ++ ")"
    | .dotted items tail => do
      let words ← items.mapM (printWithin levels)
      let last ← printWithin levels tail
      return "(" ++ unwords words ++ " . " ++ last ++ ")"
    | other => .error (.unprintable other.kind)

/-- The printed forms of data with single spaces between them. -/
def printAllWithin (levels : Nat) (data : List Datum) : Except Error String := do
  let words ← data.mapM (printWithin levels)
  return unwords words

end MiniScheme.Datum
