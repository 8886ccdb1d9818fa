import MiniScheme.Text.Lines

/-!
# Words

The word at a position is the longest stretch of its line without a break that touches the position. It is found
by two walks, one back from the position and one on from where the first has stopped. They read one character
after the other, and reading outside the line would fail. What each walk has behind it when it stops is shown
along with it, and so neither fails.
-/

namespace MiniScheme.Editor

/-- The characters that are part of no word. -/
def wordBreaks : List Char := " \t()\n\r'`,\"".toList

def isWordBreak (c : Char) : Bool :=
  wordBreaks.contains c

/-! ## The two walks -/

/-- Back from an index, as long as the character before it is there to be read and is no break. -/
def walkBack (own : List Char) : Nat → Option Nat
  | 0 => some 0
  | i + 1 => do
    let ch ← own[i]?
    if isWordBreak ch then return i + 1 else walkBack own i

/-- Behind the walk back there is no break, and it has stopped at one or at the start of the line. -/
theorem exists_walkBack {own : List Char} {i : Nat} (h : i ≤ own.length) :
    ∃ start, walkBack own i = some start ∧ start ≤ i ∧
      (∀ j, start ≤ j → j < i → own[j]?.any isWordBreak = false) ∧
      (start = 0 ∨ own[start - 1]?.any isWordBreak = true) := by
  induction i with
  | zero => exact ⟨0, rfl, Nat.le_refl 0, fun j _ hLt => absurd hLt (Nat.not_lt_zero j), .inl rfl⟩
  | succ i ih =>
    have hRead : own[i]? = some (own.get ⟨i, h⟩) := List.getElem?_eq_getElem h
    rw [walkBack, hRead, Option.bind_eq_bind, Option.bind_some]
    by_cases hBreak : isWordBreak (own.get ⟨i, h⟩) = true
    · rw [if_pos hBreak]
      refine ⟨i + 1, rfl, Nat.le_refl _, fun j hLow hLt => by omega, .inr ?_⟩
      rw [Nat.add_sub_cancel, hRead, Option.any_some, hBreak]
    · rw [if_neg hBreak]
      obtain ⟨start, hWalk, hLe, hFree, hLeft⟩ := ih (Nat.le_of_succ_le h)
      refine ⟨start, hWalk, Nat.le_succ_of_le hLe, fun j hLow hLt => ?_, hLeft⟩
      rcases Nat.lt_or_eq_of_le (Nat.le_of_lt_succ hLt) with hBefore | rfl
      · exact hFree j hLow hBefore
      · rw [hRead, Option.any_some]
        exact Bool.eq_false_iff.mpr hBreak

/-- On from an index, with so many characters left up to the end of the line. -/
def walkOn (own : List Char) : Nat → Nat → Option Nat
  | 0, i => some i
  | left + 1, i => do
    let ch ← own[i]?
    if isWordBreak ch then return i else walkOn own left (i + 1)

/-- Behind the walk on there is no break, and it has stopped at one or at the end of the line. -/
theorem exists_walkOn {own : List Char} {left i : Nat} (h : i + left = own.length) :
    ∃ finish, walkOn own left i = some finish ∧ i ≤ finish ∧ finish ≤ own.length ∧
      (∀ j, i ≤ j → j < finish → own[j]?.any isWordBreak = false) ∧
      (finish = own.length ∨ own[finish]?.any isWordBreak = true) := by
  induction left generalizing i with
  | zero => exact ⟨i, rfl, Nat.le_refl i, Nat.le_of_eq h, fun j hLow hLt => by omega, .inl h⟩
  | succ left ih =>
    have hLt : i < own.length := by omega
    have hRead : own[i]? = some (own.get ⟨i, hLt⟩) := List.getElem?_eq_getElem hLt
    rw [walkOn, hRead, Option.bind_eq_bind, Option.bind_some]
    by_cases hBreak : isWordBreak (own.get ⟨i, hLt⟩) = true
    · rw [if_pos hBreak]
      refine ⟨i, rfl, Nat.le_refl i, Nat.le_of_lt hLt, fun j hLow hLt => by omega, .inr ?_⟩
      rw [hRead, Option.any_some, hBreak]
    · rw [if_neg hBreak]
      obtain ⟨finish, hWalk, hLe, hInside, hFree, hRight⟩ := ih (by omega : i + 1 + left = own.length)
      refine ⟨finish, hWalk, Nat.le_of_succ_le hLe, hInside, fun j hLow hBelow => ?_, hRight⟩
      rcases Nat.lt_or_eq_of_le hLow with hAfter | rfl
      · exact hFree j hAfter hBelow
      · rw [hRead, Option.any_some]
        exact Bool.eq_false_iff.mpr hBreak

/-- Back from an index in the line, and then on from there. -/
def walk (own : List Char) (index : Nat) : Option (Nat × Nat) := do
  let start ← walkBack own (min index own.length)
  let finish ← walkOn own (own.length - start) start
  return (start, finish)

/-- The walks read no character outside the line. -/
theorem isSome_walk (own : List Char) (index : Nat) : (walk own index).isSome = true := by
  have hInside := Nat.min_le_right index own.length
  obtain ⟨start, hBack, hLe, -, -⟩ := exists_walkBack hInside
  obtain ⟨finish, hOn, -, -, -, -⟩ := exists_walkOn (show start + (own.length - start) = own.length by omega)
  rw [walk, hBack, Option.bind_eq_bind, Option.bind_some, hOn]
  rfl

/-! ## The word between them -/

/-- What stands in a line between the ends of the two walks from the given index. -/
def wordTouching (own : List Char) (index : Nat) : List Char :=
  let (start, finish) := (walk own index).get (isSome_walk own index)
  own.extract start finish

/-- The word at a line and an index in it, both counted from zero. -/
def wordAt (text : String) (line character : Nat) : Option String :=
  match (Text.lines text.toList)[line]? with
  | none => none
  | some own =>
    match wordTouching own character with
    | [] => none
    | word => some (String.ofList word)

end MiniScheme.Editor
