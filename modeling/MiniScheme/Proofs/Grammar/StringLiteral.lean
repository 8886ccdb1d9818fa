import MiniScheme.Proofs.Grammar.Nested

/-!
# String literals

Behind an opening quote, the characters of a string are read one after the other, each by itself or as an
escape, up to the first place where none can be read. There the string is closed, or it breaks off in one of
three ways (`BreaksOff`): the input ends, it ends after a backslash, or the character after a backslash is no
escape. Which of them it is, is told from the text alone (`exists_stop`), and it decides what becomes of the
literal (`string_literal_outcome`).

The repetition drops the mismatch of the character that cannot be read, unless a backslash has been read
already. That is why only the closing quote is expected in the first case, and only an escape in the others.
-/

namespace MiniScheme.Grammar

open Rule

/-! ## Where the characters of a string stop -/

/-- A string breaks off at the place where its next character would be read, with a mismatch and the cursor
where reading gives up. -/
inductive BreaksOff : Cursor → Mismatch → Cursor → Prop
  | unclosed (offset : Nat) :
      BreaksOff ⟨offset, []⟩ (.of offset [Text.quotedChar '"'] (some "end of input")) ⟨offset, []⟩
  | unpaired (offset : Nat) :
      BreaksOff ⟨offset, ['\\']⟩ (.of (offset + 1) ["escape character"] (some "end of input"))
        ⟨offset + 1, []⟩
  | unknown (offset : Nat) {ch : Char} (rest : List Char) : (∀ meant, ¬ Escape ch meant) →
      BreaksOff ⟨offset, '\\' :: ch :: rest⟩
        (.of (offset + 1) ["escape character"] (some (Text.quotedChar ch))) ⟨offset + 1, ch :: rest⟩

/-- Behind an opening quote stand characters of a string, and then it is closed or breaks off. -/
theorem exists_stop (text : List Char) : ∃ w s rest, StringBody w s ∧ text = w ++ rest ∧
    ((∃ more, rest = '"' :: more) ∨ ∀ offset, ∃ m next, BreaksOff ⟨offset, rest⟩ m next) := by
  induction hLength : text.length using Nat.strongRecOn generalizing text with
  | ind length ih =>
    cases text with
    | nil => exact ⟨[], [], [], .nil, rfl, .inr fun offset => ⟨_, _, .unclosed offset⟩⟩
    | cons ch text =>
      rw [List.length_cons] at hLength
      by_cases hQuote : ch = '"'
      · subst hQuote
        exact ⟨[], [], '"' :: text, .nil, rfl, .inl ⟨text, rfl⟩⟩
      by_cases hBackslash : ch = '\\'
      · subst hBackslash
        cases text with
        | nil => exact ⟨[], [], ['\\'], .nil, rfl, .inr fun offset => ⟨_, _, .unpaired offset⟩⟩
        | cons letter text =>
          rw [List.length_cons] at hLength
          by_cases hEscape : ∃ meant, Escape letter meant
          · obtain ⟨meant, hMeant⟩ := hEscape
            obtain ⟨w, s, rest, hBody, rfl, hStop⟩ := ih text.length (by omega) text rfl
            exact ⟨'\\' :: letter :: w, meant :: s, rest, .escape hMeant hBody, rfl, hStop⟩
          · rw [not_exists] at hEscape
            exact ⟨[], [], '\\' :: letter :: text, .nil, rfl,
              .inr fun offset => ⟨_, _, .unknown offset text hEscape⟩⟩
      · obtain ⟨w, s, rest, hBody, rfl, hStop⟩ := ih text.length (by omega) text rfl
        exact ⟨ch :: w, ch :: s, rest, .plain hQuote hBackslash hBody, rfl, hStop⟩

/-! ## Strings that break off -/

theorem not_mem_escapes {letter : Char} (h : ∀ meant, ¬ Escape letter meant) :
    letter ∉ escapes.map Prod.fst := by
  intro hMem
  obtain ⟨meant, -, hEscape⟩ := entry_escapes hMem
  exact h meant hEscape

/-- A backslash that starts no escape has been read when that is found out. -/
theorem run_stringChars_of_backslash {rest : List Char}
    (h : rest.head?.any (escapes.map Prod.fst).contains = false) (offset : Nat) :
    (many (choice [escapedChar, noneOf ['"', '\\']])).run ⟨offset, '\\' :: rest⟩ =
      .mismatch (.of (offset + 1) ["escape character"] (some (Cursor.found ⟨offset + 1, rest⟩)))
        ⟨offset + 1, rest⟩ := by
  have hEscaped : escapedChar.run ⟨offset, '\\' :: rest⟩ =
      .mismatch (.of (offset + 1) ["escape character"] (some (Cursor.found ⟨offset + 1, rest⟩)))
        ⟨offset + 1, rest⟩ := by
    have hLetter : (oneOf (escapes.map Prod.fst) ["escape character"]).run ⟨offset + 1, rest⟩ = _ :=
      run_satisfy_of_not h
    rw [escapedChar, run_bind_of_ok (run_discard_of_ok (run_char _ _ _)), run_bind_of_mismatch hLetter]
  have hMoved : offset + 1 ≠ offset := by omega
  refine run_many_of_moved (run_choice_of_moved ?_ hEscaped) hMoved
  rintro _ _ ⟨⟩
  exact hMoved

theorem run_stringChars_of_end (offset : Nat) :
    (many (choice [escapedChar, noneOf ['"', '\\']])).run ⟨offset, []⟩ = .ok [] ⟨offset, []⟩ := by
  refine run_many_of_refuses (refuses_choice ?_)
  simp only [List.forall_mem_cons, List.not_mem_nil, false_imp_iff, implies_true, and_true]
  exact ⟨refuses_escapedChar (by simp), refuses_satisfy rfl⟩

theorem run_string_of_breaksOff {w s rest : List Char} {offset : Nat} {m : Mismatch} {next : Cursor}
    (hBody : StringBody w s) (h : BreaksOff ⟨offset + 1 + w.length, rest⟩ m next) :
    string.run ⟨offset, '"' :: (w ++ rest)⟩ = .mismatch m next := by
  rw [string, run_bind_of_ok (run_discard_of_ok (run_char _ _ _)), run_bind, run_stringChars_append hBody]
  generalize offset + 1 + w.length = place at h
  cases h with
  | unclosed =>
    rw [run_stringChars_of_end]
    rfl
  | unpaired =>
    rw [run_stringChars_of_backslash rfl]
    rfl
  | @unknown _ ch rest hUnknown =>
    have hNone : (ch :: rest).head?.any (escapes.map Prod.fst).contains = false := by
      simpa using not_mem_escapes hUnknown
    rw [run_stringChars_of_backslash hNone]
    rfl

theorem BreaksOff.position {c next : Cursor} {m : Mismatch} (h : BreaksOff c m next) :
    c.offset ≤ m.position ∧ next.offset = m.position := by
  cases h with
  | unclosed => exact ⟨Nat.le_refl _, rfl⟩
  | unpaired => exact ⟨Nat.le_succ _, rfl⟩
  | unknown => exact ⟨Nat.le_succ _, rfl⟩

/-- What a symbol would have to start with is not asked for any more behind the quote. -/
theorem run_expression_of_breaksOff {w s rest : List Char} {offset : Nat} {m : Mismatch} {next : Cursor}
    (levels : Nat) (hBody : StringBody w s) (h : BreaksOff ⟨offset + 1 + w.length, rest⟩ m next) :
    (expression (levels + 1)).run ⟨offset, '"' :: (w ++ rest)⟩ = .mismatch m next := by
  have hSymbol : ∀ r ∈ [symbol], RefusesHere r ⟨offset, '"' :: (w ++ rest)⟩ :=
    List.forall_mem_singleton.mpr (refusesHere_symbol (by decide +kernel : isInitial '"' = false))
  obtain ⟨hFurther, hNext⟩ := h.position
  have hPosition : offset + 1 + w.length ≤ m.position := hFurther
  refine run_choice_of_further hSymbol (run_string_of_breaksOff hBody h) ?_ ?_
  · show offset < m.position
    omega
  · show next.offset ≠ offset
    omega

/-- However the characters of a string are written, the literal is read as the string, up to its closing quote
and whatever follows. A text with a quote first does not match if and only if, behind characters of a string,
it breaks off before a closing quote, and the mismatch is that of the way in which it breaks off. There is no
third case. -/
theorem string_literal_outcome (levels : Nat) :
    (∀ (w s rest : List Char) (offset : Nat), StringBody w s →
      (expression (levels + 1)).run ⟨offset, '"' :: (w ++ '"' :: rest)⟩ =
        .ok (.string (String.ofList s)) ⟨offset + (w.length + 2), rest⟩) ∧
    (∀ (text : List Char) (offset : Nat) (m : Mismatch) (next : Cursor),
      (expression (levels + 1)).run ⟨offset, '"' :: text⟩ = .mismatch m next ↔
        ∃ w s rest, StringBody w s ∧ text = w ++ rest ∧
          BreaksOff ⟨offset + 1 + w.length, rest⟩ m next) ∧
    ∀ text : List Char, ∃ w s rest, StringBody w s ∧ text = w ++ rest ∧
      ((∃ more, rest = '"' :: more) ∨ ∀ offset, ∃ m next, BreaksOff ⟨offset, rest⟩ m next) := by
  have hClosed : ∀ (w s rest : List Char) (offset : Nat), StringBody w s →
      (expression (levels + 1)).run ⟨offset, '"' :: (w ++ '"' :: rest)⟩ =
        .ok (.string (String.ofList s)) ⟨offset + (w.length + 2), rest⟩ := by
    intro w s rest offset hBody
    have hText : '"' :: (w ++ '"' :: rest) = ('"' :: w ++ ['"']) ++ rest := by simp
    have hLength : w.length + 2 = ('"' :: w ++ ['"']).length := by simp
    rw [hText, hLength]
    exact run_string_rule hBody rest _ offset
  refine ⟨hClosed, fun text offset m next => ⟨fun hRun => ?_, ?_⟩, exists_stop⟩
  · obtain ⟨w, s, rest, hBody, rfl, ⟨more, rfl⟩ | hStop⟩ := exists_stop text
    · cases (hClosed w s more offset hBody).symm.trans hRun
    · obtain ⟨m', next', hBreak⟩ := hStop (offset + 1 + w.length)
      cases (run_expression_of_breaksOff levels hBody hBreak).symm.trans hRun
      exact ⟨w, s, rest, hBody, rfl, hBreak⟩
  · rintro ⟨w, s, rest, hBody, rfl, hBreak⟩
    exact run_expression_of_breaksOff levels hBody hBreak

/-- A string with a plain character and an escaped quote, right before other text, and one that has an escaped
backslash before a backslash that starts no escape. -/
theorem string_literal_outcome_backslashes :
    StringBody "a\\\"".toList "a\"".toList ∧
    (expression 1).run ⟨0, "\"a\\\"\"b".toList⟩ = .ok (.string "a\"") ⟨5, ['b']⟩ ∧
    StringBody "\\\\".toList "\\".toList ∧
    (expression 1).run ⟨0, "\"\\\\\\q\"".toList⟩ =
      .mismatch (.of 4 ["escape character"] (some "'q'")) ⟨4, "q\"".toList⟩ := by
  have hQuote : StringBody "a\\\"".toList "a\"".toList :=
    .plain (by decide) (by decide) (.escape .quote .nil)
  have hBackslash : StringBody "\\\\".toList "\\".toList := .escape .backslash .nil
  have hUnknown : ∀ meant, ¬ Escape 'q' meant := by
    rintro meant ⟨⟩
  obtain ⟨hClosed, hBreaks, -⟩ := string_literal_outcome 0
  refine ⟨hQuote, hClosed _ _ ['b'] 0 hQuote, hBackslash, ?_⟩
  exact (hBreaks _ 0 _ _).mpr ⟨_, _, _, hBackslash, rfl, .unknown 3 ['"'] hUnknown⟩

end MiniScheme.Grammar
