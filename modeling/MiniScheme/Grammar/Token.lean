import MiniScheme.Datum.Checked
import MiniScheme.Reading.Rule
import MiniScheme.Text.Blank
import MiniScheme.Text.Numeric

/-!
# Symbols, strings, booleans and characters

The rules for the data that hold no other data, numbers apart.

* A symbol starts with a letter or a sign and goes on with letters, digits and signs.
* A string stands in double quotes; a backslash introduces one of five escapes.
* A boolean is `#t` or `#f`.
* A character is written after `#\`: the words `newline` and `space`, or one character that is not followed
  by an alphanumeric one.
-/

namespace MiniScheme.Grammar

open Rule

/-! ## Character classes -/

/-- The signs that symbols are made of beside letters and digits. -/
def signs : List Char := "!$%&|*+-/:<=?>@^_~".toList

def letter : Rule Char := satisfy Text.isLetter ["letter"]

def digit : Rule Char := satisfy Char.isDigit ["digit"]

def hexDigit : Rule Char := satisfy Numeral.isHexDigit ["hexadecimal digit"]

def octalDigit : Rule Char := satisfy Numeral.isOctalDigit ["octal digit"]

def binaryDigit : Rule Char := satisfy Numeral.isBinaryDigit ["binary digit"]

def sign : Rule Char := oneOf signs ["symbol"]

def blank : Rule Char := satisfy Text.isBlank ["space"]

/-- One or more blanks. -/
def blanks : Rule Unit := discard (many1 blank)

/-! ## Symbols -/

def symbol : Rule Datum := do
  let first ← choice [letter, sign]
  let others ← many (choice [letter, digit, sign])
  return .symbol (String.ofList (first :: others))

/-! ## Strings -/

/-- The letters after a backslash and the characters they stand for. -/
def escapes : List (Char × Char) :=
  [('\\', '\\'), ('"', '"'), ('n', '\n'), ('r', '\r'), ('t', '\t')]

def escapedChar : Rule Char := do
  discard (char '\\')
  let letter ← oneOf (escapes.map Prod.fst) ["escape character"]
  ofExcept (entry escapes letter)

def string : Rule Datum := do
  discard (char '"')
  let body ← many (choice [escapedChar, noneOf ['"', '\\']])
  discard (char '"')
  return .string (String.ofList body)

/-! ## Booleans and characters -/

def bool : Rule Datum := do
  discard (char '#')
  let ch ← oneOf ['t', 'f'] ["#t or #f"]
  return .bool (ch == 't')

/-- The names of characters and the texts of the characters they stand for. -/
def characterNames : List (String × String) :=
  [("space", " "), ("newline", "\n")]

/-- The name of a character. -/
def characterName : Rule String :=
  choice [word "newline", word "space"]

/-- A character by itself, not at the start of a longer run. -/
def loneCharacter : Rule String := do
  let ch ← anyChar
  notFollowedBy Text.isAlphanumeric
  return String.singleton ch

def character : Rule Datum := do
  discard (attempt (word "#\\"))
  let text ← choice [attempt characterName, loneCharacter]
  ofExcept (Datum.ofCharacterText ((characterNames.lookup text).getD text))

end MiniScheme.Grammar
