import MiniScheme.Text.CodePoints

/-!
# Blanks

The blanks separate the elements of a list. Stripping removes them from both ends of a text.
-/

namespace MiniScheme.Text

/-- The white space characters, line ends among them. -/
def blanks : CodePoints := ⟨[
  (0x9, 0xd), (0x1c, 0x20), (0x85, 0x85), (0xa0, 0xa0), (0x1680, 0x1680), (0x2000, 0x200a),
  (0x2028, 0x2029), (0x202f, 0x202f), (0x205f, 0x205f), (0x3000, 0x3000)]⟩

/-- A white space character. -/
def isBlank (c : Char) : Bool :=
  blanks.contains c

/-- The characters without the blanks at both ends. -/
def stripBlanks (cs : List Char) : List Char :=
  ((cs.dropWhile isBlank).reverse.dropWhile isBlank).reverse

/-- The text without the blanks at both ends. -/
def strip (s : String) : String :=
  String.ofList (stripBlanks s.toList)

end MiniScheme.Text
