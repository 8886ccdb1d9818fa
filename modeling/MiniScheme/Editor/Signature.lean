import MiniScheme.Arithmetic.Operator

/-!
# Signatures

The operators as an editor shows them, on hovering and in completion.
-/

namespace MiniScheme

/-- How an operator is called, and what it does. -/
def Operator.signature : Operator → String
  | .add => "(+ n1 n2 ...): sum, folded left"
  | .subtract => "(- n1 n2 ...): n1 minus each following argument"
  | .multiply => "(* n1 n2 ...): product, folded left"
  | .divide => "(/ n1 n2 ...): integer division rounding toward negative infinity"
  | .modulo => "(mod n1 n2 ...): modulo, sign of the divisor"
  | .quotient => "(quotient n1 n2 ...): integer division truncated toward zero"
  | .remainder => "(remainder n1 n2 ...): remainder of quotient, sign of the dividend"

namespace Editor

/-- The text shown for a word. -/
def hoverText (word : String) : Option String :=
  (Operator.ofName? word).map Operator.signature

/-- A proposal for completion. -/
structure Completion where
  label : String
  /-- What is proposed; three is a function. -/
  kind : Nat
  detail : String
deriving DecidableEq, Repr

/-- The proposals, which are the same everywhere. -/
def completions : List Completion :=
  Operator.all.map fun op => ⟨op.name, 3, op.signature⟩

end Editor

end MiniScheme
