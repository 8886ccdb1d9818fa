import MiniScheme.Error

/-!
# Equality of data

Data of different kinds are never the same. Data of one kind are the same if their parts are; doubles are
compared as numbers, so that the two zeros agree, and ratios by their value.

Comparing and hashing go down to a number of levels each. A comparison stops at the first parts that are not
the same, a hash takes in all parts.
-/

namespace MiniScheme.Datum

/-- Whether two lists hold the same data in the same order. Items are compared from the left, and that one list
is longer is not noticed before the other one ends. -/
def sameItems (same : Datum → Datum → Except Error Bool) : List Datum → List Datum → Except Error Bool
  | [], [] => .ok true
  | x :: xs, y :: ys => do
    if ← same x y then sameItems same xs ys else return false
  | _, _ => .ok false

/-- Whether two data are the same, if `same` tells it of their parts. -/
def sameOf (same : Datum → Datum → Except Error Bool) : Datum → Datum → Except Error Bool
  | .symbol a, .symbol b => .ok (a == b)
  | .list xs, .list ys => sameItems same xs ys
  | .dotted xs x, .dotted ys y => do
    if ← sameItems same xs ys then same x y else return false
  | .number m, .number n => .ok (m == n)
  | .string s, .string t => .ok (s == t)
  | .bool a, .bool b => .ok (a == b)
  | .character a, .character b => .ok (a == b)
  | .float x, .float y => .ok (x.same y)
  | .ratio p, .ratio q => .ok (p == q)
  | .complex a b, .complex x y => .ok (a.same x && b.same y)
  | .vector xs, .vector ys => sameItems same xs ys
  | _, _ => .ok false

/-- Whether two data are the same, down to the given number of levels. -/
def sameWithin : Nat → Datum → Datum → Except Error Bool
  | 0 => fun _ _ => .error .recursionTooDeep
  | levels + 1 => sameOf (sameWithin levels)

/-- A hash that data which are the same have in common, of a datum of at most the given number of levels. -/
def hashWithin : Nat → Datum → Except Error UInt64
  | 0, _ => .error .recursionTooDeep
  | levels + 1, v =>
    match v with
    | .symbol name => .ok (hash name)
    | .list items => do
      let codes ← items.mapM (hashWithin levels)
      return hash codes
    | .dotted items tail => do
      let codes ← items.mapM (hashWithin levels)
      let last ← hashWithin levels tail
      return mixHash (hash codes) last
    | .number n => .ok (hash n)
    | .string s => .ok (hash s)
    | .bool b => .ok (hash b)
    | .character c => .ok (hash c.val)
    | .float x => .ok x.code
    | .ratio q => .ok (mixHash (hash q.num) (hash q.den))
    | .complex re im => .ok (mixHash re.code im.code)
    | .vector items => do
      let codes ← items.mapM (hashWithin levels)
      return hash codes

/-- A datum added to data with their hashes, unless it is the same as one of them. It is compared with those of
its hash only. -/
def insertWithin (hashing comparing : Nat) (kept : List (UInt64 × Datum)) (v : Datum) :
    Except Error (List (UInt64 × Datum)) := do
  let code ← v.hashWithin hashing
  let known ← (kept.filter (·.1 == code)).anyM fun entry => entry.2.sameWithin comparing v
  return if known then kept else (code, v) :: kept

end MiniScheme.Datum
