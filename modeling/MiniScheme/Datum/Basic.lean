import MiniScheme.Binary64

/-!
# Data

The values that texts denote and that evaluation works on. There are eleven kinds; lists, dotted lists
and vectors hold further data.
-/

namespace MiniScheme

/-- A value of the language. -/
inductive Datum where
  | symbol (name : String)
  | list (items : List Datum)
  | dotted (items : List Datum) (tail : Datum)
  | number (n : Int)
  | string (s : String)
  | bool (b : Bool)
  | character (c : Char)
  | float (x : Binary64)
  | ratio (q : Rat)
  | complex (re im : Binary64)
  | vector (items : List Datum)
deriving Inhabited, Repr

namespace Datum

/-- The eleven kinds of data. -/
inductive Kind where
  | symbol | list | dotted | number | string | bool | character | float | ratio | complex | vector
deriving DecidableEq, Repr

/-- The name of a kind in messages. -/
def Kind.name : Kind → String
  | .symbol => "Atom"
  | .list => "List"
  | .dotted => "DottedList"
  | .number => "Number"
  | .string => "String"
  | .bool => "Bool"
  | .character => "Character"
  | .float => "Float"
  | .ratio => "Ratio"
  | .complex => "Complex"
  | .vector => "Vector"

/-- The kind of a datum. -/
def kind : Datum → Kind
  | .symbol _ => .symbol
  | .list _ => .list
  | .dotted _ _ => .dotted
  | .number _ => .number
  | .string _ => .string
  | .bool _ => .bool
  | .character _ => .character
  | .float _ => .float
  | .ratio _ => .ratio
  | .complex _ _ => .complex
  | .vector _ => .vector

/-- The ratio of two integers, in lowest terms with a positive denominator. -/
def fraction (num den : Int) : Datum :=
  .ratio (Rat.divInt num den)

end Datum

end MiniScheme
