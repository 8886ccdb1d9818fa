import MiniScheme.Editor.Diagnostic
import MiniScheme.Proofs.Grammar.Exactness
import MiniScheme.Proofs.Grammar.Unlimited
import MiniScheme.Proofs.Read

/-!
# Reading and diagnostics agree

A text that does not match is read as a string that says where and why, and the editor is told the same
about it, with coordinates from zero. The reason is never empty, because a mismatch says what was found. A
text that is read has no diagnostics or one, about what follows the expression. All offsets that are
reported lie within the text.
-/

namespace MiniScheme.Editor

variable {levels line column : Nat} {text : String} {next : Cursor}

/-! ## The three outcomes -/

theorem diagnostics_of_mismatch {m : Mismatch} {more : String}
    (hRun : (Grammar.expression levels).run (.start text.toList) = .mismatch m next)
    (hPlace : Text.Place.ofOffset text.toList m.position = ⟨line + 1, column + 1⟩)
    (hDescribe : m.describe = "unexpected " ++ more) :
    diagnosticsWithin levels text = [⟨line, column, m.describe, .error⟩] := by
  have hReason : m.describe ≠ "" := by
    rw [hDescribe]
    intro hEmpty
    have := congrArg String.toList hEmpty
    simp at this
  unfold diagnosticsWithin
  simp only [hRun, if_neg hReason, Diagnostic.ofOffset_eq hPlace]

theorem diagnostics_of_ok {v : Datum}
    (hRun : (Grammar.expression levels).run (.start text.toList) = .ok v next)
    (hPlace : Text.Place.ofOffset text.toList next.offset = ⟨line + 1, column + 1⟩)
    (hRest : next.rest = text.toList.drop next.offset) :
    diagnosticsWithin levels text =
      if (text.toList.drop next.offset).all Text.isBlank then []
      else [⟨line, column, "Input after the first expression is ignored", .information⟩] := by
  unfold diagnosticsWithin
  simp only [hRun, Diagnostic.ofOffset_eq hPlace, hRest]

theorem diagnostics_of_abort
    (hRun : (Grammar.expression levels).run (.start text.toList) = .abort .readingTooDeep next)
    (hPlace : Text.Place.ofOffset text.toList next.offset = ⟨line + 1, column + 1⟩) :
    diagnosticsWithin levels text = [⟨line, column, "expression nested too deeply", .error⟩] := by
  have hMessage : Error.readingTooDeep.message = "expression nested too deeply" := rfl
  unfold diagnosticsWithin
  simp only [hRun, Diagnostic.ofOffset_eq hPlace, hMessage]

/-- Reading and diagnostics agree on every text. Either it does not match, and then both report the place of
the mismatch and its description, which starts with what was found. Or it is read, and then the editor is
told about what follows the expression unless it is blank. Or it nests too deeply, which takes as many
characters as there are levels, and then both report where that was found. -/
theorem reader_and_editor_agree (levels : Nat) (name text : String) :
    (∃ m next line column,
      (Grammar.expression levels).run (.start text.toList) = .mismatch m next ∧
      m.position ≤ text.toList.length ∧
      Text.HasCoordinates text.toList m.position line column ∧
      Text.Place.ofOffset text.toList m.position = ⟨line + 1, column + 1⟩ ∧
      (readWithin levels name text).result = .ok (.string ("No match: \"" ++ name ++ "\" (line "
        ++ toString (line + 1) ++ ", column " ++ toString (column + 1) ++ "):\n" ++ m.describe)) ∧
      diagnosticsWithin levels text = [⟨line, column, m.describe, .error⟩] ∧
      ∃ more, m.describe = "unexpected " ++ more) ∨
    (∃ v next line column,
      (Grammar.expression levels).run (.start text.toList) = .ok v next ∧
      next.offset ≤ text.toList.length ∧
      Text.HasCoordinates text.toList next.offset line column ∧
      Text.Place.ofOffset text.toList next.offset = ⟨line + 1, column + 1⟩ ∧
      (readWithin levels name text).result = .ok v ∧
      diagnosticsWithin levels text =
        if (text.toList.drop next.offset).all Text.isBlank then []
        else [⟨line, column, "Input after the first expression is ignored", .information⟩]) ∨
    (∃ next line column,
      (Grammar.expression levels).run (.start text.toList) = .abort .readingTooDeep next ∧
      levels ≤ next.offset ∧ next.offset ≤ text.toList.length ∧
      Text.HasCoordinates text.toList next.offset line column ∧
      Text.Place.ofOffset text.toList next.offset = ⟨line + 1, column + 1⟩ ∧
      (readWithin levels name text).result = .ok (.string ("No match: \"" ++ name ++ "\" (line "
        ++ toString (line + 1) ++ ", column " ++ toString (column + 1) ++ "):\n"
        ++ "expression nested too deeply")) ∧
      diagnosticsWithin levels text = [⟨line, column, "expression nested too deeply", .error⟩]) := by
  cases hRun : (Grammar.expression levels).run (.start text.toList) with
  | mismatch m next =>
    obtain ⟨-, hLocated⟩ := (Grammar.reads_expression levels).of_mismatch hRun
    have hHigh := position_le_of_mismatch hRun
    obtain ⟨more, hDescribe⟩ := hLocated.describe_eq
    obtain ⟨line, column, hCoordinates, hPlace⟩ := Text.exists_coordinates hHigh
    refine .inl ⟨m, next, line, column, rfl, hHigh, hCoordinates, hPlace, ?_,
      diagnostics_of_mismatch hRun hPlace hDescribe, more, hDescribe⟩
    rw [readWithin_of_mismatch hRun, result_noMatch name m.describe hPlace]
  | ok v next =>
    obtain ⟨hLe, hRest, -⟩ := Grammar.denotes_of_run hRun
    obtain ⟨line, column, hCoordinates, hPlace⟩ := Text.exists_coordinates hLe
    refine .inr (.inl ⟨v, next, line, column, rfl, hLe, hCoordinates, hPlace, ?_,
      diagnostics_of_ok hRun hPlace hRest⟩)
    simp only [readWithin, hRun, Traced.pure_result]
  | abort e next =>
    obtain ⟨rfl, hLe, hRead⟩ := readWithin_of_abort hRun name
    have hAfter : 0 + levels ≤ next.offset := (Grammar.tooDeepAfter_expression levels).of_abort hRun
    rw [Nat.zero_add] at hAfter
    obtain ⟨line, column, hCoordinates, hPlace⟩ := Text.exists_coordinates hLe
    refine .inr (.inr ⟨next, line, column, rfl, hAfter, hLe, hCoordinates, hPlace, ?_,
      diagnostics_of_abort hRun hPlace⟩)
    rw [hRead, result_noMatch name _ hPlace]

end MiniScheme.Editor
