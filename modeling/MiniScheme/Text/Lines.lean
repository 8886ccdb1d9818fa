/-!
# Lines

A text is cut into lines after each line end; a carriage return and the line feed after it are one line
end. Every line keeps its line end, and only the last may lack one, so the lines put together are the text.
-/

namespace MiniScheme.Text

/-- The characters that end a line. -/
def lineEnds : List Char :=
  ['\n', '\r', '\x0b', '\x0c', '\x1c', '\x1d', '\x1e', '\u0085', '\u2028', '\u2029']

/-- The lines of a text, each with its line end. -/
def lines : List Char → List (List Char)
  | [] => []
  | '\r' :: '\n' :: rest => ['\r', '\n'] :: lines rest
  | c :: rest =>
    if c ∈ lineEnds then [c] :: lines rest
    else
      match lines rest with
      | [] => [[c]]
      | line :: more => (c :: line) :: more

theorem flatten_lines (cs : List Char) : (lines cs).flatten = cs := by
  fun_induction lines cs with
  | case1 => rfl
  | case2 rest ih => simp [ih]
  | case3 c rest _ _ ih => simp [ih]
  | case4 c rest _ _ hNone ih => rw [hNone] at ih; simp [← ih]
  | case5 c rest _ _ line more hSome ih => rw [hSome] at ih; simp [← ih]

end MiniScheme.Text
