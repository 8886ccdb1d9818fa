/-!
# Capital forms

The capital form of a text, as far as it is written in ASCII letters. Beside `a` to `z` ten characters
have such a form: the sharp s, the dotless i, the long s and seven ligatures. Every other character stands
for itself, so a text equals an ASCII word in capitals exactly if its full capital form does.
-/

namespace MiniScheme.Text

/-- The capital form of a character whose capital form is ASCII; any other character is kept. -/
def capital (c : Char) : List Char :=
  match c with
  | 'ß' => ['S', 'S']
  | 'ı' => ['I']
  | 'ſ' => ['S']
  | 'ﬀ' => ['F', 'F']
  | 'ﬁ' => ['F', 'I']
  | 'ﬂ' => ['F', 'L']
  | 'ﬃ' => ['F', 'F', 'I']
  | 'ﬄ' => ['F', 'F', 'L']
  | 'ﬅ' => ['S', 'T']
  | 'ﬆ' => ['S', 'T']
  | _ => [c.toUpper]

/-- The text with every character in its ASCII capital form. -/
def capitals (s : String) : String :=
  String.ofList (s.toList.flatMap capital)

end MiniScheme.Text
