import MiniScheme.Editor.Diagnostic
import MiniScheme.Editor.Word
import MiniScheme.Proofs.Text.Lines

/-!
# Diagnostics and words

A diagnostic is put on a place, which counts line feeds, and words are looked up in lines, which end at every
line end. The character that a diagnostic is about stands at its line and column for the words too, as long
as no line end without a line feed comes before it, and only then (`diagnostic_meets_line_iff`). It is not so
for all texts (`diagnostic_misses_line`).
-/

namespace MiniScheme.Editor

variable {text : String} {offset : Nat}

/-- In the lines that words are looked up in, a character lies as many lines below its diagnostic as there
are line ends without a line feed before it. So the two agree on it, line and column, if and only if there
is none; and then the character at the line and column of the diagnostic is the one that it is about. -/
theorem diagnostic_meets_line_iff (h : offset < text.toList.length) (message : String)
    (severity : Severity) :
    let diagnostic := Diagnostic.ofOffset text.toList offset message severity
    (∃ column, Text.InLine text.toList offset
      (diagnostic.line + Text.strayEnds text.toList offset) column) ∧
    (Text.InLine text.toList offset diagnostic.line diagnostic.column ↔
      ∀ i < offset, Text.isStrayEnd text.toList i = false) ∧
    ((∀ i < offset, Text.isStrayEnd text.toList i = false) →
      ∃ own, (Text.lines text.toList)[diagnostic.line]? = some own ∧
        own[diagnostic.column]? = text.toList[offset]?) := by
  rw [Diagnostic.ofOffset_eq (Text.ofOffset_eq (Nat.le_of_lt h))]
  obtain ⟨column, hIn, hColumn⟩ := Text.exists_inLine h
  have hMeets : (∀ i < offset, Text.isStrayEnd text.toList i = false) →
      Text.InLine text.toList offset ((text.toList.take offset).count '\n')
        (Text.afterFeed (text.toList.take offset)) := by
    intro hNone
    rw [← Text.strayEnds_eq_zero_iff] at hNone
    rwa [hColumn hNone, hNone, Nat.add_zero] at hIn
  refine ⟨⟨column, hIn⟩, ⟨fun hMeet => ?_, hMeets⟩, fun hNone => (hMeets hNone).getElem?⟩
  have hLine : (text.toList.take offset).count '\n' + Text.strayEnds text.toList offset =
    (text.toList.take offset).count '\n' := (hIn.unique hMeet).1
  exact Text.strayEnds_eq_zero_iff.mp (by omega)

/-- The second line ends with a carriage return and a line feed. -/
theorem diagnostic_meets_line_iff_pair :
    6 < "(1\n2\r\nmod".toList.length ∧
    ∃ own, (Text.lines "(1\n2\r\nmod".toList)[2]? = some own ∧
      own[0]? = "(1\n2\r\nmod".toList[6]? := by
  have hLength : 6 < "(1\n2\r\nmod".toList.length := by
    decide
  exact ⟨hLength, (diagnostic_meets_line_iff hLength "" .error).2.2 (by decide)⟩

/-- After a carriage return alone, there may be no line and column for the words where the diagnostic is. -/
theorem diagnostic_misses_line :
    ¬ ∀ (text : String) (offset : Nat), offset < text.toList.length →
      ∃ own, (Text.lines text.toList)[(Text.Place.ofOffset text.toList offset).line - 1]? = some own ∧
        own[(Text.Place.ofOffset text.toList offset).column - 1]? = text.toList[offset]? := by
  intro hLaw
  obtain ⟨own, hLine, hChar⟩ := hLaw "(1\r(2)mod)" 6 (by decide)
  have hFirst : (Text.lines "(1\r(2)mod)".toList)[(Text.Place.ofOffset "(1\r(2)mod)".toList 6).line - 1]? =
      some "(1\r".toList := by
    decide
  cases hFirst.symm.trans hLine
  revert hChar
  decide

end MiniScheme.Editor
