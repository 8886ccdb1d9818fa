import MiniScheme.Editor.Signature
import MiniScheme.Editor.Word
import MiniScheme.Proofs.Arithmetic.Operator
import MiniScheme.Proofs.Editor.MaximalWord
import MiniScheme.Proofs.Grammar.Exactness
import MiniScheme.Proofs.Text.Lines

/-!
# Hovering over operators

A list that starts with the name of an operator is read whatever blank follows the name. Words end at four
of the blanks only, and at the closing parenthesis. So the signature of the operator is shown for its name,
from its first character up to just after its last, if one of these follows it, and nothing is shown
otherwise (`hover_operator_iff`).
-/

namespace MiniScheme

/-! ## What follows the first item of a list -/

namespace Grammar

theorem Denotes.exists_after_symbol {u : List Char} {name : String} {items : List Datum}
    (h : Denotes ('(' :: u) (.list (.symbol name :: items))) :
    ∃ after, u = name.toList ++ after ∧ after ≠ [] ∧ Delimits after := by
  generalize hText : '(' :: u = w at h
  generalize hDatum : Datum.list (.symbol name :: items) = v at h
  cases h with
  | token hToken => cases hToken <;> cases hDatum
  | quote | quasiquote | unquote => cases hText
  | vector | dotted => cases hDatum
  | list hItems =>
    cases hDatum
    cases hText
    cases hItems with
    | single hName =>
      rw [hName.eq_of_symbol]
      exact ⟨[')'], rfl, by simp, .inr rfl⟩
    | @cons w blanks t _ _ _ hName hBlanks hLater =>
      rw [hName.eq_of_symbol]
      refine ⟨blanks ++ (t ++ [')']), ?_, by simp, hBlanks.delimits _⟩
      show (name.toList ++ (blanks ++ t)) ++ [')'] = _
      simp only [List.append_assoc]

end Grammar

namespace Editor

/-! ## Words -/

/-- The word between a break and what follows it, from every index in it and from both its ends. -/
theorem wordTouching_of_break {ch : Char} {word after : List Char} {index : Nat}
    (hBreak : isWordBreak ch = true) (hWord : ∀ c ∈ word, isWordBreak c = false)
    (hLow : 1 ≤ index) (hHigh : index ≤ 1 + word.length) :
    wordTouching (ch :: word ++ after) index = word ++ after.takeWhile (!isWordBreak ·) := by
  have hSplit : ch :: word ++ after =
      [ch] ++ (word ++ after.takeWhile (!isWordBreak ·)) ++ after.dropWhile (!isWordBreak ·) := by
    rw [List.append_assoc, List.append_assoc, List.takeWhile_append_dropWhile]
    rfl
  have hFree : ∀ c ∈ word ++ after.takeWhile (!isWordBreak ·), isWordBreak c = false := by
    intro c hc
    rcases List.mem_append.mp hc with hMem | hMem
    · exact hWord c hMem
    · simpa using List.mem_takeWhile_imp hMem
  have hAfter : after.dropWhile (!isWordBreak ·) = [] ∨
      (after.dropWhile (!isWordBreak ·)).head?.any isWordBreak = true := by
    have hHead := List.head?_dropWhile_not (!isWordBreak ·) after
    cases hDrop : after.dropWhile (!isWordBreak ·) with
    | nil => exact .inl rfl
    | cons c rest =>
      rw [hDrop] at hHead
      exact .inr (by simpa using hHead)
  rw [hSplit]
  refine wordTouching_append (.inr hBreak) hFree hAfter hLow ?_
  rw [List.length_singleton, List.length_append]
  omega

/-! ## Operators -/

/-- A name is one word of one line, without a blank. -/
theorem name_chars (op : Operator) : ∀ ch ∈ op.name.toList,
    isWordBreak ch = false ∧ ch ∉ Text.lineEnds ∧ Text.isBlank ch = false := by
  cases op
  all_goals exact Text.forall_mem_of_all (by decide)

theorem hoverText_of_blank {word : String} {ch : Char} (hMem : ch ∈ word.toList)
    (hBlank : Text.isBlank ch = true) : hoverText word = none := by
  rw [hoverText, Option.map_eq_none_iff, Operator.ofName?, List.find?_eq_none]
  intro op _ hName
  rw [beq_iff_eq] at hName
  rw [← hName] at hMem
  rw [(name_chars op ch hMem).2.2] at hBlank
  cases hBlank

/-- After an opening parenthesis, the word at an operator goes on to the next break of its line. -/
theorem wordAt_operator {op : Operator} {ch : Char} {more : List Char} {text : String} {index : Nat}
    (hText : text.toList = '(' :: op.name.toList ++ ch :: more)
    (hLow : 1 ≤ index) (hHigh : index ≤ 1 + op.name.length) :
    ∃ line, wordAt text 0 index =
      some (String.ofList (op.name.toList ++ (ch :: line).takeWhile (!isWordBreak ·))) := by
  obtain ⟨line, others, hRest⟩ := Text.exists_lines_cons ch more
  have hNoEnd : ∀ c ∈ '(' :: op.name.toList, c ∉ Text.lineEnds :=
    List.forall_mem_cons.mpr ⟨by decide, fun c hc => (name_chars op c hc).2.1⟩
  have hLine : (Text.lines text.toList)[0]? = some ('(' :: op.name.toList ++ ch :: line) := by
    rw [hText, Text.lines_append hNoEnd hRest]
    rfl
  have hWord : wordTouching ('(' :: op.name.toList ++ ch :: line) index =
      op.name.toList ++ (ch :: line).takeWhile (!isWordBreak ·) :=
    wordTouching_of_break (by decide) (fun c hc => (name_chars op c hc).1) hLow hHigh
  refine ⟨line, ?_⟩
  rw [wordAt, hLine]
  simp only [hWord]
  cases op <;> rfl

/-- What follows the operator of a list that is read. -/
theorem exists_after_operator {levels : Nat} {op : Operator} {rest : String} {items : List Datum}
    {next : Cursor}
    (h : (Grammar.expression levels).run (.start ("(" ++ op.name ++ rest).toList) =
      .ok (.list (.symbol op.name :: items)) next) :
    ∃ ch more, rest.toList = ch :: more ∧ (Text.isBlank ch = true ∨ ch = ')') := by
  have hText : ("(" ++ op.name ++ rest).toList = '(' :: (op.name.toList ++ rest.toList) := by
    rw [String.toList_append, String.toList_append]
    rfl
  obtain ⟨-, -, hDenotes, -⟩ := Grammar.denotes_of_run h
  rw [hText] at hDenotes
  cases hOffset : next.offset with
  | zero =>
    rw [hOffset, List.take_zero] at hDenotes
    exact absurd hDenotes.opens (by simp [Grammar.Opens])
  | succ read =>
    rw [hOffset, List.take_succ_cons] at hDenotes
    obtain ⟨after, hRead, hNe, hDelimits⟩ := hDenotes.exists_after_symbol
    have hRest : rest.toList = after ++ (op.name.toList ++ rest.toList).drop read := by
      have hSplit := List.take_append_drop read (op.name.toList ++ rest.toList)
      rw [hRead, List.append_assoc] at hSplit
      exact (List.append_cancel_left hSplit).symm
    obtain ⟨ch, others, rfl⟩ := List.exists_cons_of_ne_nil hNe
    exact ⟨ch, _, hRest, hDelimits⟩

/-- The blanks that end a word, and the closing parenthesis. -/
def operatorEnds : List Char := [' ', '\t', '\n', '\r', ')']

theorem isWordBreak_iff {ch : Char} (h : Text.isBlank ch = true ∨ ch = ')') :
    isWordBreak ch = true ↔ ch ∈ operatorEnds := by
  have hEnds : ∀ c ∈ operatorEnds, isWordBreak c = true := Text.forall_mem_of_all (by decide)
  have hBreaks : ∀ c ∈ wordBreaks, c ∈ operatorEnds ∨ Text.isBlank c = false ∧ c ≠ ')' :=
    Text.forall_mem_of_all (by decide)
  constructor
  · intro hBreak
    rcases hBreaks ch (List.contains_iff_mem.mp hBreak) with hMem | ⟨hBlank, hClose⟩
    · exact hMem
    · simp [hBlank, hClose] at h
  · exact hEnds ch

/-- If a list that starts with the name of an operator is read, a blank or the closing parenthesis follows
the name. If words end there, the signature of the operator is shown at every index from the first character
of the name to just after its last; and otherwise nothing is shown. -/
theorem hover_operator_iff {levels : Nat} {op : Operator} {rest : String} {items : List Datum}
    {next : Cursor}
    (h : (Grammar.expression levels).run (.start ("(" ++ op.name ++ rest).toList) =
      .ok (.list (.symbol op.name :: items)) next) :
    ∃ ch more, rest.toList = ch :: more ∧ (Text.isBlank ch = true ∨ ch = ')') ∧
      ∀ index, 1 ≤ index → index ≤ 1 + op.name.length →
        (wordAt ("(" ++ op.name ++ rest) 0 index).bind hoverText =
          if ch ∈ operatorEnds then some op.signature else none := by
  obtain ⟨ch, more, hRest, hEnd⟩ := exists_after_operator h
  refine ⟨ch, more, hRest, hEnd, fun index hLow hHigh => ?_⟩
  have hText : ("(" ++ op.name ++ rest).toList = '(' :: op.name.toList ++ ch :: more := by
    rw [String.toList_append, String.toList_append, hRest]
    rfl
  obtain ⟨line, hWord⟩ := wordAt_operator hText hLow hHigh
  rw [hWord, Option.bind_some]
  by_cases hMem : ch ∈ operatorEnds
  · have hBreak := (isWordBreak_iff hEnd).mpr hMem
    rw [if_pos hMem, List.takeWhile_cons_of_neg (by simp [hBreak]), List.append_nil, String.ofList_toList,
      hoverText, op.ofName?_name]
    rfl
  · have hBreak : isWordBreak ch = false :=
      Bool.eq_false_iff.mpr fun hBreak => hMem ((isWordBreak_iff hEnd).mp hBreak)
    have hBlank : Text.isBlank ch = true := by
      refine hEnd.resolve_right ?_
      rintro rfl
      exact hMem (by decide)
    rw [if_neg hMem, List.takeWhile_cons_of_pos (by simp [hBreak])]
    exact hoverText_of_blank (by simp) hBlank

/-- A tabulator after the operator. -/
theorem hover_operator_iff_tab :
    (Grammar.expression 3).run (.start ("(" ++ Operator.modulo.name ++ "\t7 2) 1").toList) =
      .ok (.list [.symbol "mod", .number 7, .number 2]) ⟨9, " 1".toList⟩ ∧
    (wordAt "(mod\t7 2) 1" 0 4).bind hoverText = some "(mod n1 n2 ...): modulo, sign of the divisor" := by
  have hRead : (Grammar.expression 3).run (.start ("(" ++ Operator.modulo.name ++ "\t7 2) 1").toList) =
      .ok (.list [.symbol Operator.modulo.name, .number 7, .number 2]) ⟨9, " 1".toList⟩ := by
    rfl
  obtain ⟨ch, more, hRest, -, hHover⟩ := hover_operator_iff hRead
  obtain ⟨rfl, -⟩ := List.cons_eq_cons.mp hRest
  exact ⟨hRead, hHover 4 (by decide) (by decide)⟩

/-- A no-break space is a blank for the reader but part of the word. -/
theorem hover_misses_operator :
    ¬ ∀ (levels : Nat) (op : Operator) (rest : String) (items : List Datum) (next : Cursor),
      (Grammar.expression levels).run (.start ("(" ++ op.name ++ rest).toList) =
        .ok (.list (.symbol op.name :: items)) next →
      ∀ index, 1 ≤ index → index ≤ 1 + op.name.length →
        (wordAt ("(" ++ op.name ++ rest) 0 index).bind hoverText = some op.signature := by
  intro hLaw
  have hRead : (Grammar.expression 3).run (.start ("(" ++ Operator.add.name ++ "\u00a01 2)").toList) =
      .ok (.list [.symbol Operator.add.name, .number 1, .number 2]) ⟨7, []⟩ := by
    rfl
  have hHover := hLaw 3 .add _ _ _ hRead 1 (by decide) (by decide)
  revert hHover
  decide

end Editor

end MiniScheme
