import MiniScheme.Error

/-!
# Checked construction and access

Characters made of a text and vectors made with index bounds are checked when they are built; access to a
vector is checked against its length.
-/

namespace MiniScheme.Datum

/-- The character of a text of exactly one character. -/
def ofCharacterText (text : String) : Except Error Datum :=
  match text.toList with
  | [c] => .ok (.character c)
  | _ => .error (.notOneCharacter text)

/-- A vector with the index bounds `low` and `high`, which start at zero and span the items. -/
def vectorOfBounds (low high : Int) (items : List Datum) : Except Error Datum :=
  if low = 0 ∧ high - low + 1 = items.length then .ok (.vector items)
  else .error (.vectorBounds low high items.length)

/-- The element of a vector's items at an index. -/
def element (items : List Datum) (index : Int) : Except Error Datum :=
  if h : 0 ≤ index ∧ index < items.length then .ok (items.get ⟨index.toNat, by omega⟩)
  else .error (.vectorIndex index items.length)

end MiniScheme.Datum
