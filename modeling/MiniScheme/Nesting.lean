/-!
# Nesting

Reading, evaluation and printing follow data down to a number of levels and report deeper nesting as an error
of its own.
-/

namespace MiniScheme

/-- How many levels a session goes down. Evaluation and printing have at least the one that the message of a
text that cannot be read takes. -/
structure Limits where
  reading : Nat
  evaluation : Nat
  printing : Nat
  evaluation_pos : 0 < evaluation
  printing_pos : 0 < printing

/-- The limits that the program runs with. -/
def Limits.standard : Limits :=
  ⟨10000, 10000, 10000, by decide, by decide⟩

end MiniScheme
