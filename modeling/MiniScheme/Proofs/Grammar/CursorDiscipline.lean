import MiniScheme.Proofs.Grammar.Nested

/-!
# Where reading leaves the cursor

Started inside a text, an expression that is read leaves the cursor further on in the text. If it does not match,
the cursor and the mismatch lie between the start and the end of the text, and the cursor has moved if and only if
the expression starts with one of four characters that commit (`expression_cursor`).
-/

namespace MiniScheme

/-! ## Cursors inside a text -/

namespace Cursor

variable {source w : List Char} {start : Nat} {next : Cursor}

theorem inside_finish (h : start ≤ source.length) :
    (inside source start).offset + (inside source start).rest.length = source.length := by
  simp only [inside, List.length_drop]
  omega

/-- What is reached from inside a text is inside it, and not before. -/
theorem Reaches.bounds (h : start ≤ source.length) (hReach : (inside source start).Reaches w next) :
    start + w.length = next.offset ∧ next.offset ≤ source.length := by
  have hFinish := hReach.finish
  rw [inside_finish h] at hFinish
  exact ⟨hReach.offset.symm, by omega⟩

theorem head?_inside (source : List Char) (start : Nat) :
    (inside source start).rest.head? = source[start]? := by
  rw [inside, List.head?_drop]

end Cursor

namespace Grammar

open Rule

variable {expr : Rule Datum} {P : List Char → Datum → Prop} {c next : Cursor} {m : Mismatch}

/-- An expression that does not match has moved if and only if it starts with a committing character. -/
theorem moved_iff (hReads : expr.Reads P) (hMoves : ∀ w v, P w v → w ≠ [])
    (h : (expressionOf expr).run c = .mismatch m next) :
    next.offset ≠ c.offset ↔ ∃ ch ∈ committing, c.rest.head? = some ch := by
  constructor
  · intro hMoved
    by_contra hNone
    refine hMoved (congrArg Cursor.offset (stays_of_not_committing (fun ch hMem hHead => ?_) h))
    exact hNone ⟨ch, hMem, hHead⟩
  · rintro ⟨ch, hMem, hHead⟩ hStay
    -- a committing character is an opener, and none that is moved back from
    have hKnown : ∀ ch ∈ committing, ch ∉ rewinding ∧ ch ∈ ['"', '#', '\'', '\x60', ',', '('] :=
      Text.forall_mem_of_all (by decide)
    obtain ⟨hNot, hOpener⟩ := hKnown ch hMem
    rcases head?_of_stays hReads hMoves h hStay with ⟨ch', hRewinding, hHead'⟩ | hNone
    · cases hHead.symm.trans hHead'
      exact hNot hRewinding
    · exact head?_ne_of_not_opener hNone ch hOpener hHead

/-- An expression is read from inside a text, from its end too. If it is read, the cursor has moved on and is
still inside. If it does not match, the cursor and the mismatch lie between the start and the end of the text, and
the mismatch says what was found there. The cursor has then moved exactly if a committing character is at the
start. At any other character every alternative that does not match leaves the cursor where it was. With more
levels than there are characters ahead, these are the only outcomes. -/
theorem expression_cursor {source : List Char} {start : Nat} (h : start ≤ source.length) (levels : Nat) :
    (∀ v next, (expression levels).run (.inside source start) = .ok v next →
      start + 1 ≤ next.offset ∧ next.offset ≤ source.length) ∧
    (∀ m next, (expression levels).run (.inside source start) = .mismatch m next →
      (start ≤ next.offset ∧ next.offset ≤ source.length) ∧
      (start ≤ m.position ∧ m.position ≤ source.length) ∧
      (∃ text, m.unexpected = some text ∧ text ≠ "") ∧
      (next.offset ≠ start ↔ ∃ ch ∈ committing, source[start]? = some ch)) ∧
    (∀ r ∈ alternatives (expression levels), ∀ m next, r.run (.inside source start) = .mismatch m next →
      (∀ ch ∈ committing, source[start]? ≠ some ch) → next = .inside source start) ∧
    (source.length - start < levels →
      ∀ e next, (expression levels).run (.inside source start) ≠ .abort e next) := by
  refine ⟨fun v next hRun => ?_, fun m next hRun => ?_, fun r hr m next hRun hHead => ?_,
    fun hLevels e next hRun => ?_⟩
  · obtain ⟨w, hReach, hDenotes⟩ := (reads_expression levels).of_ok hRun
    have hPos := List.length_pos_iff.mpr (ne_nil_of_denotesWithin w v hDenotes)
    obtain ⟨hOffset, hEnd⟩ := hReach.bounds h
    exact ⟨by omega, hEnd⟩
  · obtain ⟨⟨w, hReach⟩, hLocated⟩ := (reads_expression levels).of_mismatch hRun
    obtain ⟨hOffset, hEnd⟩ := hReach.bounds h
    have hHigh := hLocated.high
    rw [Cursor.inside_finish h] at hHigh
    refine ⟨⟨by omega, hEnd⟩, ⟨hLocated.low, hHigh⟩, hLocated.found, ?_⟩
    rw [← Cursor.head?_inside]
    cases levels with
    | zero => cases hRun
    | succ levels => exact moved_iff (reads_expression levels) ne_nil_of_denotesWithin hRun
  · rw [← Cursor.head?_inside] at hHead
    exact alternative_stays hHead r hr m next hRun
  · obtain ⟨-, rfl⟩ := (reads_expression levels).of_abort hRun
    have hLength : (Cursor.inside source start).rest.length < levels := by
      rwa [Cursor.inside, List.length_drop]
    exact not_tooDeep_expression hLength ⟨next, hRun⟩

/-- A vector that is not closed has come to the end of the text and moves back, a quasiquotation does not. -/
theorem expression_cursor_unclosed : ∃ m next m' next',
    (expression 4).run (.inside "x#(1".toList 1) = .mismatch m next ∧ m.position = 4 ∧ next.offset = 1 ∧
    (expression 4).run (.inside "x\x60".toList 1) = .mismatch m' next' ∧ next'.offset ≠ 1 := by
  obtain ⟨-, hVector, -⟩ := expression_cursor (show 1 ≤ "x#(1".toList.length by decide) 4
  obtain ⟨-, hQuasi, -⟩ := expression_cursor (show 1 ≤ "x\x60".toList.length by decide) 4
  refine ⟨_, _, _, _, rfl, rfl, ?_, rfl, (hQuasi _ _ rfl).2.2.2.mpr ⟨'\x60', by decide, rfl⟩⟩
  by_contra hMoved
  obtain ⟨ch, hMem, hHead⟩ := (hVector _ _ rfl).2.2.2.mp hMoved
  cases hHead
  revert hMem
  decide

end Grammar

end MiniScheme
