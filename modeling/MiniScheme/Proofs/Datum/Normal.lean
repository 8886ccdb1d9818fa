import MiniScheme.Arithmetic.Operator
import MiniScheme.Datum.Printed
import MiniScheme.Proofs.Binary64.Equality

/-!
# Normal forms

The normal form of a datum has the unsigned zero for both zeros, wherever they stand in it, and is the datum
otherwise. A datum is as high as its normal form, is printed as its normal form is, and counts as the same
integer, all with any number of levels.
-/

namespace MiniScheme.Datum

mutual

/-- The datum without signs of zeros. -/
def normal : Datum → Datum
  | .list items => .list (normalItems items)
  | .dotted items tail => .dotted (normalItems items) tail.normal
  | .float x => .float x.normal
  | .complex re im => .complex re.normal im.normal
  | .vector items => .vector (normalItems items)
  | v => v

/-- The normal forms of items. -/
def normalItems : List Datum → List Datum
  | [] => []
  | item :: items => item.normal :: normalItems items

end

@[simp] theorem normalItems_eq_map (items : List Datum) : normalItems items = items.map normal := by
  induction items with
  | nil => rfl
  | cons item items ih => rw [normalItems, ih, List.map_cons]

@[simp] theorem kind_normal (v : Datum) : v.normal.kind = v.kind := by
  cases v <;> rfl

/-! ## Heights -/

mutual

/-- How many levels a datum has. A list without items has one. -/
def height : Datum → Nat
  | .list items => itemsHeight items + 1
  | .dotted items tail => max (itemsHeight items) tail.height + 1
  | .vector items => itemsHeight items + 1
  | _ => 1

/-- How many levels the highest of some items has. -/
def itemsHeight : List Datum → Nat
  | [] => 0
  | item :: items => max item.height (itemsHeight items)

end

theorem height_pos (v : Datum) : 0 < v.height := by
  cases v <;> simp [height]

/-! ## Integers and printed forms -/

theorem mapM_map_normal {α : Type} {f : Datum → Except Error α} (h : ∀ v, f v.normal = f v) (items : List Datum) :
    (items.map normal).mapM f = items.mapM f := by
  rw [List.mapM_map]
  exact congrArg (fun f => items.mapM f) (funext h)

end MiniScheme.Datum
