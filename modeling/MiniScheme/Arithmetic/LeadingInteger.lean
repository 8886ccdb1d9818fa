import MiniScheme.Numeral
import MiniScheme.Text.Blank

/-!
# The integer at the start of a text

A text may begin with an integer: blanks, a minus sign with further blanks, and a numeral, which is
hexadecimal after `0x`, octal after `0o` and decimal otherwise. The numeral goes as far as its digits do.
A decimal numeral with a fraction or an exponent attached is no integer.
-/

namespace MiniScheme

namespace LeadingInteger

/-- The digits at the start of a text, if there are any. -/
def digitRun (isDigit : Char → Bool) (cs : List Char) : Option (List Char) :=
  match cs.takeWhile isDigit with
  | [] => none
  | digits => some digits

/-- The digits after a zero and one of two marks. -/
def marked (marks : List Char) (isDigit : Char → Bool) : List Char → Option (List Char)
  | '0' :: mark :: cs => if mark ∈ marks then digitRun isDigit cs else none
  | _ => none

/-- Whether a text starts with a digit. -/
def startsWithDigit : List Char → Bool
  | d :: _ => d.isDigit
  | [] => false

/-- Whether a fraction or an exponent starts here. -/
def isInexactTail : List Char → Bool
  | '.' :: cs => startsWithDigit cs
  | e :: cs =>
    (e == 'e' || e == 'E') &&
      match cs with
      | s :: more => if s = '+' ∨ s = '-' then startsWithDigit more else s.isDigit
      | [] => false
  | [] => false

/-- The value of an unsigned decimal numeral without fraction and exponent. -/
def decimal (cs : List Char) : Option Nat := do
  let digits ← digitRun Char.isDigit cs
  if isInexactTail (cs.dropWhile Char.isDigit) then none
  else some (Numeral.value 10 digits)

/-- The value of the unsigned numeral at the start of a text. -/
def unsigned (cs : List Char) : Option Nat :=
  match marked ['x', 'X'] Numeral.isHexDigit cs with
  | some digits => some (Numeral.value 16 digits)
  | none =>
    match marked ['o', 'O'] Numeral.isOctalDigit cs with
    | some digits => some (Numeral.value 8 digits)
    | none => decimal cs

end LeadingInteger

open LeadingInteger in
/-- The integer at the start of a text. -/
def leadingInteger (text : String) : Option Int :=
  match text.toList.dropWhile Text.isBlank with
  | '-' :: cs => (unsigned (cs.dropWhile Text.isBlank)).map fun n => -(n : Int)
  | cs => (unsigned cs).map fun n => (n : Int)

end MiniScheme
