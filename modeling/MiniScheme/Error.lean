import MiniScheme.Datum.Basic
import MiniScheme.Reading.Mismatch
import MiniScheme.Text.Quoted

/-!
# Errors

Everything that can go wrong, by its cause, with its wording in one place.
-/

namespace MiniScheme

/-- The cause of a failure. -/
inductive Error where
  /-- The text does not match. -/
  | mismatch (m : Mismatch)
  /-- The text nests deeper than reading follows. -/
  | readingTooDeep
  /-- A character was to be made of a text that is not one character. -/
  | notOneCharacter (text : String)
  /-- The index bounds of a vector do not fit its elements. -/
  | vectorBounds (low high : Int) (count : Nat)
  /-- There is no such element. -/
  | vectorIndex (index : Int) (count : Nat)
  /-- A table has no entry for this character. -/
  | missingEntry (key : Char)
  /-- Data of this kind have no printed form. -/
  | unprintable (kind : Datum.Kind)
  /-- The datum nests deeper than printing follows. -/
  | printingTooDeep
  /-- A symbol stands where a value is needed. -/
  | unboundSymbol (name : String)
  /-- A datum of this kind is no form. -/
  | malformedForm (kind : Datum.Kind)
  /-- An operator was applied to nothing. -/
  | noArguments (operator : String)
  /-- An operator met a zero divisor. -/
  | divisionByZero (operator : String)
  /-- The form nests deeper than evaluation follows. -/
  | evaluationTooDeep
  /-- An integer was divided by zero. -/
  | zeroDivisor
  /-- A datum nests deeper than an operation on it that has no error of its own for this. -/
  | recursionTooDeep
deriving DecidableEq, Repr

namespace Error

/-- The class an error is reported under. -/
def label : Error → String
  | .mismatch _ => "SchemerParseError"
  | .readingTooDeep => "SchemerParseError"
  | .notOneCharacter _ => "SchemerValueError"
  | .vectorBounds _ _ _ => "SchemerValueError"
  | .vectorIndex _ _ => "SchemerValueError"
  | .missingEntry _ => "KeyError"
  | .unprintable _ => "SchemerRenderError"
  | .printingTooDeep => "SchemerRenderError"
  | .unboundSymbol _ => "UnboundSymbol"
  | .malformedForm _ => "MalformedForm"
  | .noArguments _ => "SchemerArityError"
  | .divisionByZero _ => "SchemerDivisionByZero"
  | .evaluationTooDeep => "SchemerNestingError"
  | .zeroDivisor => "ZeroDivisionError"
  | .recursionTooDeep => "RecursionError"

/-- The error in words. -/
def message : Error → String
  | .mismatch m => m.describe
  | .readingTooDeep => "expression nested too deeply"
  | .notOneCharacter text => "Character expects exactly one char, got " ++ Text.quoted text
  | .vectorBounds low high count =>
    "Vector bounds (" ++ Numeral.decimal low ++ ", " ++ Numeral.decimal high ++ ") do not match "
      ++ Numeral.decimal count ++ " element(s)"
  | .vectorIndex index count =>
    "Vector index " ++ Numeral.decimal index ++ " outside [0, " ++ Numeral.decimal (count - 1) ++ "]"
  | .missingEntry key => Text.quotedChar key
  | .unprintable kind => "No printed representation for " ++ kind.name
  | .printingTooDeep => "Value is nested too deeply to render"
  | .unboundSymbol name => "Cannot evaluate unbound symbol " ++ name ++ "."
  | .malformedForm kind => "No evaluation rule for " ++ kind.name ++ " form"
  | .noArguments operator => operator ++ " requires at least 1 argument"
  | .divisionByZero operator => operator ++ ": division by zero"
  | .evaluationTooDeep => "Form is nested too deeply to evaluate"
  | .zeroDivisor => "integer division or modulo by zero"
  | .recursionTooDeep => "maximum recursion depth exceeded"

end Error

/-- The entry of a table for a character. -/
def entry {α : Type} (table : List (Char × α)) (key : Char) : Except Error α :=
  match table.lookup key with
  | some a => .ok a
  | none => .error (.missingEntry key)

end MiniScheme
