import MiniScheme.Editor.Word
import Mathlib.Tactic.ByContra

/-!
# The word at an index

A stretch of a line is a part without a break that goes on in neither direction (`IsStretch`). Exactly one stretch
touches a given index, and the word at the index is what stands there (`wordAt_eq_stretch`).

The two walks end where a stretch that touches the index does (`exists_walk`), and so they end where the only one
does.
-/

namespace MiniScheme.Editor

/-! ## Stretches -/

/-- From `start` up to `finish` there is no break, and there is one, or the end of the line, on either side. -/
structure IsStretch (own : List Char) (start finish : Nat) : Prop where
  ordered : start ≤ finish
  inside : finish ≤ own.length
  free : ∀ i, start ≤ i → i < finish → own[i]?.any isWordBreak = false
  left : start = 0 ∨ own[start - 1]?.any isWordBreak = true
  right : finish = own.length ∨ own[finish]?.any isWordBreak = true

/-- The stretch touches the index; one past the end of the line counts as the end. -/
def Touches (own : List Char) (start finish index : Nat) : Prop :=
  start ≤ min index own.length ∧ min index own.length ≤ finish
deriving Decidable

namespace IsStretch

variable {own : List Char} {start finish start' finish' index : Nat}

theorem start_le (h : IsStretch own start finish) (hTouch : Touches own start finish index)
    (h' : IsStretch own start' finish') (hTouch' : Touches own start' finish' index) : start' ≤ start := by
  obtain ⟨hLow, hHigh⟩ := hTouch
  obtain ⟨hLow', hHigh'⟩ := hTouch'
  by_contra hLt
  -- the break before the later start would lie inside the earlier stretch
  have hFree := h.free (start' - 1) (by omega) (by omega)
  rcases h'.left with hZero | hBreak
  · omega
  · rw [hFree] at hBreak
    cases hBreak

theorem le_finish (h : IsStretch own start finish) (hTouch : Touches own start finish index)
    (h' : IsStretch own start' finish') (hTouch' : Touches own start' finish' index) : finish ≤ finish' := by
  obtain ⟨hLow, hHigh⟩ := hTouch
  obtain ⟨hLow', hHigh'⟩ := hTouch'
  have hInside := h.inside
  by_contra hLt
  have hFree := h.free finish' (by omega) (by omega)
  rcases h'.right with hEnd | hBreak
  · omega
  · rw [hFree] at hBreak
    cases hBreak

/-- No two stretches touch one index. -/
theorem unique (h : IsStretch own start finish) (hTouch : Touches own start finish index)
    (h' : IsStretch own start' finish') (hTouch' : Touches own start' finish' index) :
    start' = start ∧ finish' = finish :=
  ⟨Nat.le_antisymm (h.start_le hTouch h' hTouch') (h'.start_le hTouch' h hTouch),
    Nat.le_antisymm (h'.le_finish hTouch' h hTouch) (h.le_finish hTouch h' hTouch')⟩

end IsStretch

/-! ## The walks -/

/-- From every index the two walks find a stretch that touches it, and they read no character outside the line. -/
theorem exists_walk (own : List Char) (index : Nat) :
    ∃ start finish, walk own index = some (start, finish) ∧ IsStretch own start finish ∧
      Touches own start finish index := by
  obtain ⟨start, hBack, hLe, hFree, hLeft⟩ := exists_walkBack (Nat.min_le_right index own.length)
  have hInside := Nat.min_le_right index own.length
  obtain ⟨finish, hOn, hOrdered, hFinish, hFree', hRight⟩ :=
    exists_walkOn (show start + (own.length - start) = own.length by omega)
  -- the second walk cannot stop before the index: the first has found no break up to there
  have hPast : min index own.length ≤ finish := by
    by_contra hLt
    have hNone := hFree finish hOrdered (by omega)
    rcases hRight with hEnd | hBreak
    · omega
    · rw [hNone] at hBreak
      cases hBreak
  refine ⟨start, finish, ?_, ⟨hOrdered, hFinish, hFree', hLeft, hRight⟩, hLe, hPast⟩
  rw [walk, hBack, Option.bind_eq_bind, Option.bind_some, hOn]
  rfl

theorem IsStretch.wordTouching_eq {own : List Char} {start finish index : Nat}
    (h : IsStretch own start finish) (hTouch : Touches own start finish index) :
    wordTouching own index = own.extract start finish := by
  obtain ⟨start', finish', hWalk, hStretch', hTouch'⟩ := exists_walk own index
  obtain ⟨rfl, rfl⟩ := h.unique hTouch hStretch' hTouch'
  simp only [wordTouching, hWalk, Option.get_some]

theorem IsStretch.extract_eq_nil_iff {own : List Char} {start finish : Nat} (h : IsStretch own start finish) :
    own.extract start finish = [] ↔ start = finish := by
  have hOrdered := h.ordered
  have hInside := h.inside
  rw [List.extract_eq_take_drop, ← List.length_eq_zero_iff, List.length_take, List.length_drop]
  omega

/-- A part of a line without a break is a stretch if there is a break, or nothing, on either side of it. -/
theorem isStretch_append {before word after : List Char}
    (hBefore : before = [] ∨ before.getLast?.any isWordBreak = true)
    (hWord : ∀ ch ∈ word, isWordBreak ch = false)
    (hAfter : after = [] ∨ after.head?.any isWordBreak = true) :
    IsStretch (before ++ word ++ after) before.length (before.length + word.length) where
  ordered := Nat.le_add_right _ _
  inside := by
    rw [List.length_append, List.length_append]
    exact Nat.le_add_right _ _
  free i hLow hHigh := by
    rw [List.append_assoc, List.getElem?_append_right hLow, List.getElem?_append_left (by omega)]
    cases hRead : word[i - before.length]? with
    | none => rfl
    | some ch => exact hWord ch (List.mem_of_getElem? hRead)
  left := by
    rcases hBefore with rfl | hBreak
    · exact .inl rfl
    · refine .inr ?_
      have hNonempty : before ≠ [] := by
        rintro rfl
        cases hBreak
      have hPos := List.length_pos_iff.mpr hNonempty
      rw [List.append_assoc, List.getElem?_append_left (by omega), ← List.getLast?_eq_getElem?]
      exact hBreak
  right := by
    rcases hAfter with rfl | hBreak
    · refine .inl ?_
      rw [List.append_nil, List.length_append]
    · refine .inr ?_
      rw [← List.length_append, List.getElem?_append_right (Nat.le_refl _), Nat.sub_self, ← List.head?_eq_getElem?]
      exact hBreak

/-- The word of such a part, from every index in it and from both its ends. -/
theorem wordTouching_append {before word after : List Char} {index : Nat}
    (hBefore : before = [] ∨ before.getLast?.any isWordBreak = true)
    (hWord : ∀ ch ∈ word, isWordBreak ch = false)
    (hAfter : after = [] ∨ after.head?.any isWordBreak = true)
    (hLow : before.length ≤ index) (hHigh : index ≤ before.length + word.length) :
    wordTouching (before ++ word ++ after) index = word := by
  have hStretch := isStretch_append hBefore hWord hAfter
  have hInside : min index (before ++ word ++ after).length = index :=
    Nat.min_eq_left (Nat.le_trans hHigh hStretch.inside)
  rw [hStretch.wordTouching_eq ⟨hInside.symm ▸ hLow, hInside.symm ▸ hHigh⟩, List.extract_eq_take_drop,
    Nat.add_sub_cancel_left, List.append_assoc, List.drop_left, List.take_left]

/-! ## The word at a line and an index -/

theorem wordAt_of_line {text : String} {line : Nat} {own : List Char}
    (h : (Text.lines text.toList)[line]? = some own) (character : Nat) :
    wordAt text line character =
      if wordTouching own character = [] then none else some (String.ofList (wordTouching own character)) := by
  simp only [wordAt, h]
  cases wordTouching own character <;> rfl

/-- Nothing is found in a line that is not there. In a line of the text, exactly one stretch without a break touches
the index, and the word is what it holds, or none if it is empty. It is the same word from every index that the
stretch touches. The walks back and on find its two ends, and read no character outside the line. -/
theorem wordAt_eq_stretch (text : String) (line character : Nat) :
    ((Text.lines text.toList).length ≤ line → wordAt text line character = none) ∧
    ∀ own, (Text.lines text.toList)[line]? = some own →
      ∃ start finish, IsStretch own start finish ∧ Touches own start finish character ∧
        (∀ start' finish', IsStretch own start' finish' → Touches own start' finish' character →
          start' = start ∧ finish' = finish) ∧
        (∀ index, Touches own start finish index →
          walk own index = some (start, finish) ∧
          wordAt text line index =
            if start = finish then none else some (String.ofList (own.extract start finish))) := by
  refine ⟨fun hPast => ?_, fun own hOwn => ?_⟩
  · rw [wordAt, List.getElem?_eq_none hPast]
  · obtain ⟨start, finish, -, hStretch, hTouch⟩ := exists_walk own character
    refine ⟨start, finish, hStretch, hTouch, fun start' finish' h' hTouch' =>
      hStretch.unique hTouch h' hTouch', fun index hIndex => ⟨?_, ?_⟩⟩
    · obtain ⟨start', finish', hWalk, hStretch', hTouch'⟩ := exists_walk own index
      obtain ⟨rfl, rfl⟩ := hStretch.unique hIndex hStretch' hTouch'
      exact hWalk
    · rw [wordAt_of_line hOwn, hStretch.wordTouching_eq hIndex]
      simp only [hStretch.extract_eq_nil_iff]

/-- The same word from inside it and from both its ends, and none below the last line. -/
theorem wordAt_eq_stretch_ends :
    IsStretch "(mod 7)\r\n".toList 1 4 ∧ wordAt "(mod 7)\r\nx" 0 1 = some "mod" ∧
    wordAt "(mod 7)\r\nx" 0 4 = some "mod" ∧ wordAt "(mod 7)\r\nx" 2 0 = none := by
  obtain ⟨start, finish, hStretch, hTouch, -, hSame⟩ :=
    (wordAt_eq_stretch "(mod 7)\r\nx" 0 2).2 "(mod 7)\r\n".toList (by decide)
  have hWalk : walk "(mod 7)\r\n".toList 2 = some (1, 4) := by
    decide
  cases hWalk.symm.trans (hSame 2 hTouch).1
  exact ⟨hStretch, (hSame 1 (by decide)).2, (hSame 4 (by decide)).2,
    (wordAt_eq_stretch "(mod 7)\r\nx" 2 0).1 (by decide)⟩

end MiniScheme.Editor
