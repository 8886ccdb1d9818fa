/-!
# Sets of code points

A set of code points is given by its closed ranges in ascending order. Looking a code point up stops at
the first range that begins above it, so the low code points are found after a few comparisons.
-/

namespace MiniScheme.Text

/-- A set of code points, as closed ranges in ascending order. -/
structure CodePoints where
  ranges : List (Nat × Nat)

namespace CodePoints

/-- Whether one of the ascending ranges holds `n`. -/
def holds : List (Nat × Nat) → Nat → Bool
  | [], _ => false
  | (low, high) :: higher, n =>
    if n < low then false else if n ≤ high then true else holds higher n

/-- Whether the character's code point is in the set. -/
def contains (set : CodePoints) (c : Char) : Bool :=
  holds set.ranges c.toNat

theorem exists_range_of_holds {ranges : List (Nat × Nat)} {n : Nat} (h : holds ranges n = true) :
    ∃ range ∈ ranges, range.1 ≤ n ∧ n ≤ range.2 := by
  induction ranges with
  | nil => simp [holds] at h
  | cons range higher ih =>
    simp only [holds] at h
    split at h
    · simp at h
    · split at h
      · exact ⟨range, by simp, by omega, by assumption⟩
      · obtain ⟨found, hMem, hBounds⟩ := ih h
        exact ⟨found, by simp [hMem], hBounds⟩

end CodePoints

end MiniScheme.Text
