import MiniScheme.Grammar.Number

/-!
# Expressions

The rules for data that hold other data, and the choice between all kinds of data. Every rule takes the rule
for its parts as an argument; `expression` ties the knot with the number of levels that data may nest, and
aborts when they are used up.

Elements are separated by blanks, which stand nowhere else. Of the thirteen alternatives the first that
matches wins. Those that share their first characters with a later one put the cursor back when they fail;
the others commit. A numeral is read before fractions, ratios and complex numbers are tried, so an
expression ends after the digits.
-/

namespace MiniScheme.Grammar

open Rule

/-! ## Quotations -/

/-- The marks of quotations and the names they stand for. -/
def quotationNames : List (Char × String) :=
  [('\'', "quote"), ('\x60', "quasiquote"), (',', "unquote")]

/-- A mark and an expression, as the list of the mark's name and the expression. -/
def quotation (mark : Char) (expr : Rule Datum) : Rule Datum := do
  discard (char mark)
  let name ← ofExcept (entry quotationNames mark)
  let datum ← expr
  return .list [.symbol name, datum]

def quoted (expr : Rule Datum) : Rule Datum := quotation '\'' expr

def quasiquoted (expr : Rule Datum) : Rule Datum := quotation '\x60' expr

def unquoted (expr : Rule Datum) : Rule Datum := quotation ',' expr

/-! ## Vectors and lists -/

def vector (expr : Rule Datum) : Rule Datum := do
  discard (word "#(")
  let items ← sepBy expr blanks
  discard (char ')')
  ofExcept (Datum.vectorOfBounds 0 (items.length - 1) items)

/-- The items of a list. -/
def list (expr : Rule Datum) : Rule Datum :=
  .list <$> sepBy expr blanks

/-- The items and the tail of a dotted list. -/
def dottedList (expr : Rule Datum) : Rule Datum := do
  let items ← endBy expr blanks
  discard (char '.')
  blanks
  let tail ← expr
  return .dotted items tail

/-- A rule and the closing parenthesis. -/
def closed (r : Rule Datum) : Rule Datum := do
  let datum ← r
  discard (char ')')
  return datum

/-- A list, or else a dotted list read anew from the opening parenthesis. -/
def parenthesized (expr : Rule Datum) : Rule Datum := do
  discard (char '(')
  choice [attempt (closed (list expr)), closed (dottedList expr)]

/-! ## All together -/

/-- An expression whose parts are read by `expr`. -/
def expressionOf (expr : Rule Datum) : Rule Datum :=
  choice [
    symbol,
    string,
    attempt number,
    attempt bool,
    attempt character,
    attempt float,
    attempt ratio,
    attempt complex,
    attempt (quoted expr),
    quasiquoted expr,
    unquoted expr,
    attempt (vector expr),
    parenthesized expr]

/-- An expression of at most the given number of levels. -/
def expression : Nat → Rule Datum
  | 0 => abort .readingTooDeep
  | levels + 1 => expressionOf (expression levels)

end MiniScheme.Grammar
