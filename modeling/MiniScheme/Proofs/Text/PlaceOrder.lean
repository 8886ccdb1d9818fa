import Mathlib.Data.Prod.Lex
import MiniScheme.Proofs.Text.Coordinates

/-!
# Places in order

A line starts at the start of the text or just after a line feed (`StartsLine`), and at one offset only. The place
of an offset, also of one past the end of the text, names the line whose start is the last one up to the offset;
the column is the distance from there. So the offset is found again from its place, and places are in the order of
their offsets (`ofOffset_embeds`).
-/

namespace MiniScheme.Text

/-! ## Where lines start -/

/-- The line with this number starts at the offset. The first line starts with the text, and line `n + 2` just after
the line feed that has `n` line feeds before it. -/
def StartsLine (source : List Char) (line : Nat) : Nat → Prop
  | 0 => line = 1
  | i + 1 => source[i]? = some '\n' ∧ line = (source.take i).count '\n' + 2

instance (source : List Char) (line : Nat) : DecidablePred (StartsLine source line)
  | 0 => inferInstanceAs (Decidable (line = 1))
  | i + 1 => inferInstanceAs (Decidable (source[i]? = some '\n' ∧ line = (source.take i).count '\n' + 2))

theorem count_take_mono (source : List Char) {i j : Nat} (h : i ≤ j) :
    (source.take i).count '\n' ≤ (source.take j).count '\n' :=
  (List.take_sublist_take_left h).count_le '\n'

/-- A line feed is counted from the next offset on. -/
theorem count_take_succ {source : List Char} {i : Nat} (h : source[i]? = some '\n') :
    (source.take (i + 1)).count '\n' = (source.take i).count '\n' + 1 := by
  rw [List.take_add_one, h, List.count_append]
  rfl

theorem StartsLine.count_take {source : List Char} {line offset : Nat} (h : StartsLine source line offset) :
    line = (source.take offset).count '\n' + 1 := by
  cases offset with
  | zero => exact h
  | succ i => rw [count_take_succ h.1, h.2]

theorem StartsLine.not_lt {source : List Char} {line a b : Nat} (ha : StartsLine source line a)
    (hb : StartsLine source line b) : ¬ a < b := by
  intro hLt
  cases b with
  | zero => omega
  | succ j =>
    -- the line feed before the later start is one more than those before the earlier one
    have hEarlier := ha.count_take
    have hMono := count_take_mono source (Nat.le_of_lt_succ hLt)
    have hLater := hb.2
    omega

/-- A line starts at one offset only. -/
theorem StartsLine.unique {source : List Char} {line a b : Nat} (ha : StartsLine source line a)
    (hb : StartsLine source line b) : a = b := by
  have hLe := ha.not_lt hb
  have hGe := hb.not_lt ha
  omega

theorem StartsLine.append {before : List Char} {line offset : Nat} (h : StartsLine before line offset)
    (after : List Char) : StartsLine (before ++ after) line offset := by
  cases offset with
  | zero => exact h
  | succ i =>
    obtain ⟨hFeed, hLine⟩ := h
    obtain ⟨hLt, -⟩ := List.getElem?_eq_some_iff.mp hFeed
    refine ⟨?_, ?_⟩
    · rw [List.getElem?_append_left hLt, hFeed]
    · rw [List.take_append_of_le_length (Nat.le_of_lt hLt), hLine]

/-! ## The line of an offset -/

/-- The last line of a text starts after its last line feed, and none follows. -/
theorem startsLine_lineStart (before : List Char) :
    StartsLine before (before.count '\n' + 1) (Place.lineStart before) ∧
      '\n' ∉ before.drop (Place.lineStart before) := by
  obtain ⟨above, own, hText, hAbove, hOwn⟩ := exists_lines before
  have hStart : Place.lineStart before = above.length := by
    rw [Place.lineStart, ← afterFeed, hText, afterFeed_append hAbove hOwn, List.length_append,
      Nat.add_sub_cancel]
  rw [hStart]
  refine ⟨?_, by rwa [hText, List.drop_left]⟩
  have hCount : before.count '\n' = above.count '\n' := by
    rw [hText, List.count_append, List.count_eq_zero.mpr hOwn, Nat.add_zero]
  rw [hCount, hText]
  refine StartsLine.append ?_ own
  rcases hAbove with rfl | hFeed
  · rfl
  · obtain ⟨init, rfl⟩ := List.getLast?_eq_some_iff.mp hFeed
    rw [List.length_append, List.length_singleton]
    exact ⟨by simp, by simp [List.count_append]⟩

theorem lineStart_le (before : List Char) : Place.lineStart before ≤ before.length :=
  Nat.sub_le _ _

/-- The place of an offset is the number of the line that started last, and the distance from its start. -/
theorem exists_startsLine (source : List Char) (offset : Nat) :
    ∃ start, StartsLine source (Place.ofOffset source offset).line start ∧
      start + ((Place.ofOffset source offset).column - 1) = offset ∧
      '\n' ∉ (source.take offset).drop start := by
  obtain ⟨hStart, hNone⟩ := startsLine_lineStart (source.take offset)
  refine ⟨Place.lineStart (source.take offset), ?_, ?_, hNone⟩
  · have hSource := hStart.append (source.drop offset)
    rwa [List.take_append_drop] at hSource
  · have hLe := (lineStart_le (source.take offset)).trans (List.length_take_le offset source)
    simp only [Place.ofOffset]
    omega

/-- Places in their order: by lines, and in one line by columns. -/
def Place.toLexPair (place : Place) : Nat ×ₗ Nat :=
  toLex (place.line, place.column)

theorem strictMono_ofOffset (source : List Char) :
    StrictMono fun offset => (Place.ofOffset source offset).toLexPair := by
  intro offset offset' hLt
  obtain ⟨start, hStart, hColumn, -⟩ := exists_startsLine source offset
  obtain ⟨start', hStart', hColumn', -⟩ := exists_startsLine source offset'
  have hLine : (Place.ofOffset source offset).line ≤ (Place.ofOffset source offset').line :=
    Nat.succ_le_succ (count_take_mono source (Nat.le_of_lt hLt))
  refine Prod.Lex.toLex_lt_toLex.mpr ?_
  rcases Nat.lt_or_eq_of_le hLine with hBelow | hSame
  · exact .inl hBelow
  · -- in one line both columns are counted from the same start
    rw [hSame] at hStart
    obtain rfl := hStart.unique hStart'
    exact .inr ⟨hSame, by omega⟩

/-- Every offset has a place, also past the end of the text. Its line is one more than there are line feeds before
the offset, its column is at least one, and the offset is that of the start of the line and the column together;
no line feed lies between the two. A line starts at one offset only, so the place determines the offset. Places
come in the order of their offsets, and no two offsets share one. -/
theorem ofOffset_embeds (source : List Char) :
    (∀ offset, (Place.ofOffset source offset).line - 1 = (source.take offset).count '\n' ∧
      1 ≤ (Place.ofOffset source offset).line ∧ 1 ≤ (Place.ofOffset source offset).column ∧
      ∃ start, StartsLine source (Place.ofOffset source offset).line start ∧
        (∀ other, StartsLine source (Place.ofOffset source offset).line other → other = start) ∧
        offset = start + (Place.ofOffset source offset).column - 1 ∧
        '\n' ∉ (source.take offset).drop start) ∧
    (StrictMono fun offset => (Place.ofOffset source offset).toLexPair) ∧
    Function.Injective (Place.ofOffset source) := by
  refine ⟨fun offset => ?_, strictMono_ofOffset source, ?_⟩
  · obtain ⟨start, hStart, hColumn, hNone⟩ := exists_startsLine source offset
    have hPos : 1 ≤ (Place.ofOffset source offset).column := Nat.le_add_left 1 _
    refine ⟨rfl, Nat.le_add_left 1 _, hPos, start, hStart, fun other hOther => hOther.unique hStart, ?_, hNone⟩
    omega
  · intro offset offset' hSame
    exact (strictMono_ofOffset source).injective (congrArg Place.toLexPair hSame)

/-- The line feed belongs to the line that it ends, and offsets past the end go on counting columns. -/
theorem ofOffset_embeds_past_end :
    Place.ofOffset ['a', '\n', 'b'] 1 = ⟨1, 2⟩ ∧ Place.ofOffset ['a', '\n', 'b'] 7 = ⟨2, 6⟩ ∧
    (∀ start, StartsLine ['a', '\n', 'b'] 2 start → start = 2) ∧
    (Place.mk 1 2).toLexPair < (Place.mk 2 6).toLexPair := by
  obtain ⟨hPlaces, hOrder, -⟩ := ofOffset_embeds ['a', '\n', 'b']
  obtain ⟨-, -, -, start, hStart, hOnly, -⟩ := hPlaces 7
  refine ⟨rfl, rfl, fun other hOther => ?_, hOrder (show 1 < 7 by decide)⟩
  rw [hOnly other hOther, hOnly 2 (by decide)]

end MiniScheme.Text
