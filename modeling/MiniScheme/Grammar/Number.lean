import MiniScheme.Grammar.Token

/-!
# Numbers

Integers are written in base ten, or in base ten, sixteen, eight or two after a mark. Decimal fractions,
ratios and complex numbers have rules of their own. In a complex number both parts are doubles.
-/

namespace MiniScheme.Grammar

open Rule

/-- One or more decimal digits. -/
def digits : Rule (List Char) := many1 digit

/-! ## Integers -/

def decimal : Rule Nat :=
  Numeral.value 10 <$> digits

/-- A numeral after its mark. -/
def markedNumeral (mark : String) (digit : Rule Char) (value : List Char → Nat) : Rule Nat := do
  discard (attempt (word mark))
  value <$> many1 digit

def markedDecimal : Rule Nat := markedNumeral "#d" digit (Numeral.value 10)

def hex : Rule Nat := markedNumeral "#x" hexDigit (Numeral.value 16)

def octal : Rule Nat := markedNumeral "#o" octalDigit (Numeral.value 8)

def binary : Rule Nat := markedNumeral "#b" binaryDigit Numeral.binaryValue

/-- An integer in any of its notations. -/
def integer : Rule Nat :=
  choice [decimal, markedDecimal, hex, octal, binary]

def number : Rule Datum :=
  (fun n => .number n) <$> integer

/-! ## Fractions -/

/-- Digits, a point and digits. -/
def double : Rule Binary64 := do
  let whole ← digits
  discard (char '.')
  let fraction ← digits
  return .ofDecimal whole fraction

def float : Rule Datum :=
  .float <$> double

/-- Two numerals with a slash between them. A zero denominator is a mismatch at the denominator, which has
been read by then. -/
def ratio : Rule Datum := do
  let num ← decimal
  discard (char '/')
  let start ← offset
  let den ← decimal
  if den = 0 then mismatch (.of start ["non-zero denominator"] (Text.quoted "0"))
  else return .fraction num den

/-! ## Complex numbers -/

/-- A part of a complex number, as a double. -/
def complexPart : Rule Binary64 :=
  choice [attempt double, .ofNat <$> decimal, .ofNat <$> markedDecimal]

def complex : Rule Datum := do
  let re ← complexPart
  discard (char '+')
  let im ← complexPart
  discard (char 'i')
  return .complex re im

end MiniScheme.Grammar
