import Mathlib.Data.List.TakeWhile
import MiniScheme.Text.Place

/-!
# Coordinates

An offset of a text lies in a line and a column, both counted from zero: the text before it consists of that
many whole lines and of that many characters of its own line. The place of an offset is one more in both.
-/

namespace MiniScheme.Text

/-- The text before the offset is `line` whole lines and `column` characters of the next one. -/
def HasCoordinates (source : List Char) (offset line column : Nat) : Prop :=
  ∃ above own, source.take offset = above ++ own ∧ (above = [] ∨ above.getLast? = some '\n') ∧
    '\n' ∉ own ∧ above.count '\n' = line ∧ own.length = column

/-- How many characters follow the last line feed. -/
def afterFeed (before : List Char) : Nat :=
  (before.reverse.takeWhile (· != '\n')).length

theorem ofOffset_eq {source : List Char} {offset : Nat} (h : offset ≤ source.length) :
    Place.ofOffset source offset =
      ⟨(source.take offset).count '\n' + 1, afterFeed (source.take offset) + 1⟩ := by
  have hLength : afterFeed (source.take offset) ≤ offset := by
    have := (List.takeWhile_prefix (· != '\n') (l := (source.take offset).reverse)).length_le
    rw [List.length_reverse, List.length_take_of_le h] at this
    exact this
  simp only [Place.ofOffset, Place.lineStart, List.length_take_of_le h, Place.mk.injEq, true_and]
  unfold afterFeed at *
  omega

/-- Any text is its whole lines and what follows the last line feed. -/
theorem exists_lines (before : List Char) :
    ∃ above own, before = above ++ own ∧ (above = [] ∨ above.getLast? = some '\n') ∧ '\n' ∉ own := by
  have hSplit := List.takeWhile_append_dropWhile (p := (· != '\n')) (l := before.reverse)
  refine ⟨(before.reverse.dropWhile (· != '\n')).reverse, (before.reverse.takeWhile (· != '\n')).reverse,
    ?_, ?_, ?_⟩
  · rw [← List.reverse_append, hSplit, List.reverse_reverse]
  · rw [List.reverse_eq_nil_iff, List.getLast?_reverse]
    have hHead := List.head?_dropWhile_not (· != '\n') before.reverse
    cases hRest : (before.reverse.dropWhile (· != '\n')) with
    | nil => exact .inl rfl
    | cons ch rest =>
      rw [hRest] at hHead
      exact .inr (by simpa using hHead)
  · intro hMem
    have hNot := List.mem_takeWhile_imp (List.mem_reverse.mp hMem)
    simp at hNot

theorem afterFeed_append {above own : List Char} (hAbove : above = [] ∨ above.getLast? = some '\n')
    (hOwn : '\n' ∉ own) : afterFeed (above ++ own) = own.length := by
  have hNone : above.reverse.takeWhile (· != '\n') = [] := by
    rw [← List.head?_reverse] at hAbove
    cases hLines : above.reverse with
    | nil => rfl
    | cons ch rest =>
      rw [hLines, List.head?_cons, List.reverse_eq_nil_iff.symm, hLines] at hAbove
      obtain rfl : ch = '\n' := by simpa using hAbove
      rfl
  have hAll : ∀ ch ∈ own.reverse, (ch != '\n') = true := by
    intro ch hMem
    rw [bne_iff_ne]
    rintro rfl
    exact hOwn (List.mem_reverse.mp hMem)
  rw [afterFeed, List.reverse_append, List.takeWhile_append_of_pos hAll, hNone, List.append_nil,
    List.length_reverse]

/-- The place of an offset is given by its coordinates, which are therefore unique. -/
theorem HasCoordinates.place_eq {source : List Char} {offset line column : Nat}
    (h : HasCoordinates source offset line column) (hOffset : offset ≤ source.length) :
    Place.ofOffset source offset = ⟨line + 1, column + 1⟩ := by
  obtain ⟨above, own, hText, hAbove, hOwn, rfl, rfl⟩ := h
  rw [ofOffset_eq hOffset, hText, afterFeed_append hAbove hOwn, List.count_append,
    List.count_eq_zero.mpr hOwn, Nat.add_zero]

theorem exists_coordinates {source : List Char} {offset : Nat} (h : offset ≤ source.length) :
    ∃ line column, HasCoordinates source offset line column ∧
      Place.ofOffset source offset = ⟨line + 1, column + 1⟩ := by
  obtain ⟨above, own, hText, hAbove, hOwn⟩ := exists_lines (source.take offset)
  have hCoordinates : HasCoordinates source offset (above.count '\n') own.length :=
    ⟨above, own, hText, hAbove, hOwn, rfl, rfl⟩
  exact ⟨above.count '\n', own.length, hCoordinates, hCoordinates.place_eq h⟩

end MiniScheme.Text
