import MiniScheme.Proofs.Grammar.Completeness
import MiniScheme.Proofs.Text.Coordinates
import MiniScheme.Read

/-!
# What a source is read as

Reading never fails: a text that does not match, or nests too deeply, is read as a string that says where and
why. The checks made while reading (the tables of escapes and quotations, the texts of characters, the bounds of
vectors) always pass, so that nesting is the only reason to abort. All offsets that are reported lie within the
text.
-/

namespace MiniScheme

variable {levels offset line column : Nat} {source : List Char} {next : Cursor}

/-! ## How offsets are reported -/

theorem noMatchText_eq (name : String) (line column : Nat) (reason : String) :
    noMatchText name ⟨line, column⟩ reason = "No match: \"" ++ name ++ "\" (line " ++ toString line
      ++ ", column " ++ toString column ++ "):\n" ++ reason := by
  rw [← Numeral.decimal_natCast line, ← Numeral.decimal_natCast column]
  rfl

/-- What a text is read as when reading stopped at an offset. -/
theorem result_noMatch (name reason : String)
    (h : Text.Place.ofOffset source offset = ⟨line + 1, column + 1⟩) :
    (noMatch name source offset reason).result = .ok (.string ("No match: \"" ++ name ++ "\" (line "
      ++ toString (line + 1) ++ ", column " ++ toString (column + 1) ++ "):\n" ++ reason)) := by
  show Except.ok (Datum.string (noMatchText name (.ofOffset source offset) reason)) = _
  rw [h, noMatchText_eq]

theorem offset_le_of_reaches {w : List Char} (h : (Cursor.start source).Reaches w next) :
    next.offset ≤ source.length := by
  have hFinish : next.offset + next.rest.length = 0 + source.length := h.finish
  omega

/-! ## Sources that cannot be read -/

theorem position_le_of_mismatch {m : Mismatch}
    (h : (Grammar.expression levels).run (.start source) = .mismatch m next) : m.position ≤ source.length := by
  obtain ⟨-, hLocated⟩ := (Grammar.reads_expression levels).of_mismatch h
  have hHigh : m.position ≤ 0 + source.length := hLocated.high
  omega

theorem readWithin_of_mismatch {m : Mismatch} {text : String}
    (h : (Grammar.expression levels).run (.start text.toList) = .mismatch m next) (name : String) :
    readWithin levels name text = noMatch name text.toList m.position m.describe := by
  rw [readWithin, h]

/-- Reading gives up for good only because of nesting. -/
theorem readWithin_of_abort {e : Error} {text : String}
    (h : (Grammar.expression levels).run (.start text.toList) = .abort e next) (name : String) :
    e = .readingTooDeep ∧ next.offset ≤ text.toList.length ∧
      readWithin levels name text = noMatch name text.toList next.offset "expression nested too deeply" := by
  obtain ⟨⟨w, hReach⟩, rfl⟩ := (Grammar.reads_expression levels).of_abort h
  refine ⟨rfl, offset_le_of_reaches hReach, ?_⟩
  rw [readWithin, h]
  rfl

/-- Nesting one level too deep: every mark of quotation takes a level, and the last one has none left for
what it quotes. -/
theorem run_expression_quotes (levels offset : Nat) (rest : List Char) :
    (Grammar.expression levels).run ⟨offset, List.replicate levels '\'' ++ rest⟩ =
      .abort .readingTooDeep ⟨offset + levels, rest⟩ := by
  induction levels generalizing offset with
  | zero => rfl
  | succ levels ih =>
    rw [List.replicate_succ, List.cons_append]
    have hQuoted : (Grammar.quoted (Grammar.expression levels)).run
        ⟨offset, '\'' :: (List.replicate levels '\'' ++ rest)⟩ =
          .abort .readingTooDeep ⟨offset + (levels + 1), rest⟩ := by
      have hName : entry Grammar.quotationNames '\'' = .ok "quote" := rfl
      rw [Grammar.quoted, Grammar.quotation, hName,
        Rule.run_bind_of_ok (Rule.run_discard_of_ok (Rule.run_char _ _ _))]
      show ((Grammar.expression levels).run _).andThen _ = _
      rw [ih, Nat.add_right_comm, Nat.add_assoc]
      rfl
    refine (Rule.run_choice_append (by simp)
      (Grammar.noToken_of_mem (by simp) _).refuses).mpr ?_
    exact Rule.run_choice_of_run (by simp) (Rule.run_attempt_of_run (by simp) hQuoted)

/-- Reading always gives a datum. -/
theorem exists_result_readWithin (levels : Nat) (name text : String) :
    ∃ v, (readWithin levels name text).result = .ok v := by
  cases h : (Grammar.expression levels).run (.start text.toList) with
  | ok v next =>
    rw [readWithin, h]
    exact ⟨v, rfl⟩
  | mismatch m next =>
    rw [readWithin_of_mismatch h]
    exact ⟨_, rfl⟩
  | abort e next =>
    rw [(readWithin_of_abort h name).2.2]
    exact ⟨_, rfl⟩

end MiniScheme
