/-!
# Places in a text

A place is a line and a column, both counted from one. Only line feeds end a line here, and columns go on
counting past the end of the text.
-/

namespace MiniScheme.Text

/-- A line and a column, counted from one. -/
structure Place where
  line : Nat
  column : Nat
deriving DecidableEq, Repr

namespace Place

/-- The offset just after the last line feed. -/
def lineStart (before : List Char) : Nat :=
  before.length - (before.reverse.takeWhile (· != '\n')).length

/-- The place of an offset. -/
def ofOffset (source : List Char) (offset : Nat) : Place :=
  let before := source.take offset
  { line := before.count '\n' + 1
    column := offset - lineStart before + 1 }

end Place

end MiniScheme.Text
