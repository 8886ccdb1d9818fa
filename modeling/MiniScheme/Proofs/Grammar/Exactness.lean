import MiniScheme.Nesting
import MiniScheme.Proofs.Grammar.Completeness

/-!
# Reading is exact

Reading and the grammar agree. What is read from the start of a text stands for the datum that comes out,
and a text that stands for a datum is read as it, to the end. The number of levels is the only thing that
keeps a text of the grammar from being read, and it does so exactly when the datum is deeper.
-/

namespace MiniScheme.Grammar

/-- What was read is a first part of the text, and it stands for the datum. -/
theorem denotes_of_run {s : List Char} {v : Datum} {next : Cursor} {levels : Nat}
    (h : (expression levels).run (.start s) = .ok v next) :
    next.offset ≤ s.length ∧ next.rest = s.drop next.offset ∧
      Denotes (s.take next.offset) v ∧ v.depth ≤ levels := by
  obtain ⟨w, hReach, hDenotes, hDepth⟩ := (reads_expression levels).of_ok h
  have hOffset : next.offset = w.length := by rw [hReach.offset, Cursor.start, Nat.zero_add]
  have hText : s = w ++ next.rest := hReach.rest
  rw [hOffset, hText]
  simp [hDenotes, hDepth]

/-- A whole text is read as a datum if and only if it stands for the datum and is not too deep. -/
theorem run_whole_iff {s : List Char} {v : Datum} {levels : Nat} :
    (expression levels).run (.start s) = .ok v ⟨s.length, []⟩ ↔ Denotes s v ∧ v.depth ≤ levels := by
  constructor
  · intro hRun
    obtain ⟨-, -, hDenotes, hDepth⟩ := denotes_of_run hRun
    exact ⟨by simpa using hDenotes, hDepth⟩
  · rintro ⟨hDenotes, hDepth⟩
    have hEnd : Delimits [] := trivial
    have hRun := run_expression hDenotes hDepth hEnd 0
    rwa [List.append_nil, Nat.zero_add] at hRun

/-- An expression is read from exactly the texts of the grammar. The part of a text that is read stands
for the datum; a text that stands for a datum is read as it, up to its end, before a delimiter; and so a
text is read as a whole just when it stands for the datum. -/
theorem expression_reads_exactly_denoted (levels : Nat) :
    (∀ (s : List Char) (v : Datum) (next : Cursor),
      (expression levels).run (.start s) = .ok v next →
        next.offset ≤ s.length ∧ next.rest = s.drop next.offset ∧
          Denotes (s.take next.offset) v ∧ v.depth ≤ levels) ∧
    (∀ (w rest : List Char) (v : Datum), Denotes w v → v.depth ≤ levels → Delimits rest →
      (expression levels).run (.start (w ++ rest)) = .ok v ⟨w.length, rest⟩) ∧
    (∀ (s : List Char) (v : Datum),
      (expression levels).run (.start s) = .ok v ⟨s.length, []⟩ ↔
        Denotes s v ∧ v.depth ≤ levels) := by
  refine ⟨fun s v next hRun => denotes_of_run hRun, ?_, fun s v => run_whole_iff⟩
  intro w rest v hDenotes hDepth hRest
  have hRun := run_expression hDenotes hDepth hRest 0
  rwa [Nat.zero_add] at hRun

/-- A dotted list whose items are a quotation and a vector, with a string for its tail. -/
theorem expression_reads_exactly_denoted_dotted :
    Denotes "('-x  #(12 #xfF) . \"a\\n\")".toList
      (.dotted [.list [.symbol "quote", .symbol "-x"], .vector [.number 12, .number 255]]
        (.string "a\n")) ∧
    Delimits " 7".toList ∧
    (expression 3).run (.start "('-x  #(12 #xfF) . \"a\\n\") 7".toList) =
      .ok (.dotted [.list [.symbol "quote", .symbol "-x"], .vector [.number 12, .number 255]]
        (.string "a\n")) ⟨25, " 7".toList⟩ := by
  have hQuotation : Denotes "'-x".toList (.list [.symbol "quote", .symbol "-x"]) := by
    have hText : IsSymbolText "-x".toList :=
      ⟨by decide +kernel, Text.forall_mem_of_all (by decide +kernel)⟩
    exact .quote (.token (.symbol hText))
  have hDecimal : Denotes "12".toList (.number 12) := by
    have hRadix : ⟨[], Char.isDigit, 10⟩ ∈ radices := by simp [radices]
    exact .token (.number hRadix (by decide) (Text.forall_mem_of_all (by decide)))
  have hHex : Denotes "#xfF".toList (.number 255) := by
    have hRadix : ⟨['#', 'x'], Numeral.isHexDigit, 16⟩ ∈ radices := by simp [radices]
    exact .token (.number hRadix (by decide) (Text.forall_mem_of_all (by decide)))
  have hVector : Denotes "#(12 #xfF)".toList (.vector [.number 12, .number 255]) :=
    .vector (.cons hDecimal isBlanks_space (.single hHex))
  have hString : Denotes "\"a\\n\"".toList (.string "a\n") :=
    .token (.string (.plain (by decide) (by decide) (.escape .newline .nil)))
  have hDotted : Denotes "('-x  #(12 #xfF) . \"a\\n\")".toList
      (.dotted [.list [.symbol "quote", .symbol "-x"], .vector [.number 12, .number 255]]
        (.string "a\n")) := by
    have hSpaces : IsBlanks [' ', ' '] := ⟨by decide, Text.forall_mem_of_all (by decide)⟩
    exact .dotted (.cons hQuotation hSpaces (.cons hVector isBlanks_space .nil)) isBlanks_space
      hString
  have hDepth : (Datum.dotted [.list [.symbol "quote", .symbol "-x"],
      .vector [.number 12, .number 255]] (.string "a\n")).depth ≤ 3 := by
    simp [Datum.depth, Datum.itemsDepth]
  have hRest : Delimits " 7".toList := .inl (by decide)
  exact ⟨hDotted, hRest,
    (expression_reads_exactly_denoted 3).2.1 _ " 7".toList _ hDotted hDepth hRest⟩

end MiniScheme.Grammar
