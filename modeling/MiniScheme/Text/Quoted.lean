import MiniScheme.Text.Printable

/-!
# Quoted text

Messages show characters and texts in quotes. The quote is `'`, or `"` when the text holds a `'` and no
`"`. Inside, the quote in use and the backslash stand after a backslash, line feed, carriage return and
tab are written by name, and every other unprintable character by its code point in hexadecimal digits:
two after `\x`, four after `\u`, eight after `\U`, whichever is the first to hold it.
-/

namespace MiniScheme.Text

/-- The lowest `width` hexadecimal digits of `n`, most significant first. -/
def hexDigits : Nat → Nat → List Char
  | 0, _ => []
  | width + 1, n => hexDigits width (n / 16) ++ [Nat.digitChar (n % 16)]

/-- A character written by its code point. -/
def codeEscape (c : Char) : List Char :=
  let n := c.toNat
  if n < 0x100 then '\\' :: 'x' :: hexDigits 2 n
  else if n < 0x10000 then '\\' :: 'u' :: hexDigits 4 n
  else '\\' :: 'U' :: hexDigits 8 n

/-- A character as it stands between two quotes `mark`. -/
def escapeWithin (mark c : Char) : List Char :=
  if c = mark ∨ c = '\\' then ['\\', c]
  else if c = '\n' then ['\\', 'n']
  else if c = '\r' then ['\\', 'r']
  else if c = '\t' then ['\\', 't']
  else if isPrintable c then [c]
  else codeEscape c

/-- The quote for a text: the single one, unless the text holds it and no double one. -/
def quoteMark (cs : List Char) : Char :=
  if '\'' ∈ cs ∧ '"' ∉ cs then '"' else '\''

/-- The text in quotes. -/
def quoted (s : String) : String :=
  let cs := s.toList
  let mark := quoteMark cs
  String.ofList (mark :: (cs.flatMap (escapeWithin mark) ++ [mark]))

/-- The character in quotes. -/
def quotedChar (c : Char) : String :=
  quoted (String.singleton c)

end MiniScheme.Text
