import MiniScheme.Datum.Basic

/-!
# Forms

What evaluation makes of a datum, told from its shape: a constant, a quotation, an application, a reference,
or no form at all.
-/

namespace MiniScheme

/-- A datum as something to evaluate. -/
inductive Form where
  /-- It stands for itself. -/
  | constant
  /-- It stands for the quoted datum. -/
  | quotation (datum : Datum)
  /-- The operator is applied to the values of the arguments. -/
  | application (operator : String) (args : List Datum)
  /-- It would have to be looked up. -/
  | reference (name : String)
  /-- There is no rule for it. -/
  | malformed

/-- The form of a datum. -/
def Datum.form : Datum → Form
  | .number _ => .constant
  | .string _ => .constant
  | .bool _ => .constant
  | .symbol name => .reference name
  | .list (.symbol name :: args) =>
    match args with
    | [datum] => if name = "quote" then .quotation datum else .application name [datum]
    | args => .application name args
  | _ => .malformed

end MiniScheme
