import MiniScheme.Proofs.Grammar.Fractions
import MiniScheme.Proofs.Grammar.OnePass
import MiniScheme.Proofs.Grammar.Shift
import MiniScheme.Proofs.Grammar.Unlimited

/-!
# Mismatches behind an opening parenthesis

What becomes of the mismatch of an expression if an opening parenthesis stands before the expression? The
list that has been opened then runs the expression as its first element.

* If the element has moved the cursor, its mismatch is that of the list (`run_onePassItems_of_moved`).
* If it has not, the list takes the element for missing and expects its own end
  (`run_onePassItems_of_refuses`), and the mismatch of the element is forgotten.

Mostly the mismatch that is forgotten lies at the cursor, where no expression starts
(`refusesHere_expressionOf`). But a quotation and all that starts with a sharp come further and move back
(`lt_position_of_rewinding`). Only what starts with one of four other characters stays where it has come to
(`stays_of_not_committing`).
-/

namespace MiniScheme.Grammar

open Rule

/-! ## Alternatives that refuse at the cursor -/

section Refusals

variable {expr : Rule Datum} {c : Cursor}

theorem refusesHere_symbol (h : c.rest.head?.any isInitial = false) : RefusesHere symbol c := by
  have hBoth : c.rest.head?.any Text.isLetter = false ∧ c.rest.head?.any signs.contains = false := by
    cases hHead : c.rest.head? with
    | none => exact ⟨rfl, rfl⟩
    | some ch => simpa [hHead, isInitial] using h
  refine (refusesHere_choice ?_).bind _
  simp only [List.forall_mem_cons, List.not_mem_nil, false_imp_iff, implies_true, and_true]
  exact ⟨(expects_satisfy hBoth.1).refusesHere, (expects_satisfy hBoth.2).refusesHere⟩

theorem refusesHere_of_char {α : Type} {ch : Char} (h : c.rest.head? ≠ some ch) (f : Unit → Rule α) :
    RefusesHere (discard (char ch) >>= f) c :=
  ((expects_char h).discard.bind f).refusesHere

theorem refusesHere_vector (h : c.rest.head? ≠ some '#') : RefusesHere (attempt (vector expr)) c :=
  ((expects_word rfl h).discard.bind _).attempt.refusesHere

/-- All alternatives but that for lists. -/
def unparenthesized (expr : Rule Datum) : List (Rule Datum) :=
  [symbol, string, attempt number, attempt bool, attempt character, attempt (quoted expr),
    quasiquoted expr, unquoted expr, attempt (vector expr)]

theorem refusesHere_unparenthesized (hInitial : c.rest.head?.any isInitial = false)
    (hDigit : c.rest.head?.any Char.isDigit = false)
    (hHead : ∀ ch ∈ ['"', '#', '\'', '\x60', ','], c.rest.head? ≠ some ch) :
    ∀ r ∈ unparenthesized expr, RefusesHere r c := by
  have hSharp := hHead '#' (by simp)
  simp only [unparenthesized, List.forall_mem_cons, List.not_mem_nil, false_imp_iff, implies_true,
    and_true]
  exact ⟨refusesHere_symbol hInitial, refusesHere_of_char (hHead _ (by simp)) _,
    (expects_number hDigit hSharp).attempt.refusesHere, (expects_bool hSharp).attempt.refusesHere,
    (expects_character hSharp).attempt.refusesHere,
    ((expects_char (hHead '\'' (by simp))).discard.bind _).attempt.refusesHere,
    refusesHere_of_char (hHead _ (by simp)) _, refusesHere_of_char (hHead _ (by simp)) _,
    refusesHere_vector hSharp⟩

/-- Where no opener is ahead, an expression is missed there and nowhere else. -/
theorem refusesHere_expressionOf (h : c.rest.head?.any isOpener = false) :
    RefusesHere (expressionOf expr) c := by
  have hHead := head?_ne_of_not_opener h
  rw [expressionOf_eq_integral]
  refine refusesHere_choice ?_
  show ∀ r ∈ unparenthesized expr ++ [parenthesized expr], RefusesHere r c
  rw [List.forall_mem_append, List.forall_mem_singleton]
  refine ⟨refusesHere_unparenthesized (head?_any_of_not_opener h fun _ => isOpener_of_isInitial)
    (head?_any_of_not_opener h fun _ => isOpener_of_isDigit) fun ch hMem => hHead ch ?_,
    refusesHere_of_char (hHead _ (by simp)) _⟩
  simp only [List.mem_cons, List.not_mem_nil, or_false] at hMem ⊢
  tauto

end Refusals

/-! ## Expressions that leave the cursor alone -/

/-- The characters after which an expression that does not match moves back. -/
def rewinding : List Char := ['\'', '#']

section Staying

variable {expr : Rule Datum} {P : List Char → Datum → Prop} {c next : Cursor} {m : Mismatch}

/-- A rule that has not moved has not found its first character. -/
theorem head?_ne_of_stays {ch : Char} {f : Unit → Rule Datum} {Q : List Char → Datum → Prop}
    (hReads : (f ()).Reads Q) (h : (discard (char ch) >>= f).run c = .mismatch m next)
    (hStay : next.offset = c.offset) : c.rest.head? ≠ some ch := by
  intro hHead
  obtain ⟨offset, rest⟩ := c
  obtain ⟨text, rfl⟩ := List.head?_eq_some_iff.mp hHead
  rw [run_bind_of_ok (run_discard_of_ok (run_char _ _ _))] at h
  obtain ⟨⟨w, hReach⟩, -⟩ := hReads.of_mismatch h
  have hOffset : next.offset = offset + 1 + w.length := hReach.offset
  have hSame : next.offset = offset := hStay
  omega

theorem not_initial_of_mismatch (h : symbol.run c = .mismatch m next) :
    c.rest.head?.any isInitial = false := by
  obtain ⟨offset, rest⟩ := c
  cases rest with
  | nil => rfl
  | cons ch rest =>
    rw [List.head?_cons, Option.any_some, Bool.eq_false_iff]
    intro hInitial
    rw [symbol, run_bind_of_ok (isClass_initial.run hInitial),
      run_bind_of_ok (isClass_subsequent.run_many _ _)] at h
    cases h

theorem not_digit_of_mismatch (h : number.run c = .mismatch m next) :
    c.rest.head?.any Char.isDigit = false := by
  obtain ⟨offset, rest⟩ := c
  cases rest with
  | nil => rfl
  | cons ch rest =>
    rw [List.head?_cons, Option.any_some, Bool.eq_false_iff]
    intro hDigit
    obtain ⟨n, last, hRun⟩ := run_number_of_startsNumeral ⟨ch, rest, hDigit, .inl rfl⟩ offset
    cases h.symm.trans hRun

theorem reads_quotationRest (hReads : expr.Reads P) {mark : Char} {name : String}
    (hEntry : entry quotationNames mark = .ok name) :
    (do let name ← ofExcept (entry quotationNames mark)
        let datum ← expr
        return .list [.symbol name, datum] : Rule Datum).Reads fun _ _ => True :=
  reads_bind (reads_ofExcept (P := fun _ _ => True) hEntry trivial) fun _ _ _ =>
    reads_bind hReads fun _ _ _ => reads_pure trivial

/-- An expression that does not match and has not moved starts with no opener, or it has moved back. -/
theorem head?_of_stays (hReads : expr.Reads P) (hMoves : ∀ w v, P w v → w ≠ [])
    (h : (expressionOf expr).run c = .mismatch m next) (hStay : next.offset = c.offset) :
    (∃ ch ∈ rewinding, c.rest.head? = some ch) ∨ c.rest.head?.any isOpener = false := by
  rw [expressionOf_eq_integral] at h
  obtain ⟨-, hAll⟩ := refusals_of_choiceFrom h hStay
  simp only [List.forall_mem_cons, List.not_mem_nil, false_imp_iff, implies_true, and_true] at hAll
  obtain ⟨⟨_, _, hSymbol, -⟩, ⟨_, _, hString, hString', -⟩, ⟨_, _, hNumber, -⟩, -, -, -,
    ⟨_, _, hQuasi, hQuasi', -⟩, ⟨_, _, hUnquote, hUnquote', -⟩, -, ⟨_, _, hList, hList', -⟩⟩ := hAll
  obtain ⟨_, hNumber⟩ := exists_run_of_attempt hNumber
  have hInitial := not_initial_of_mismatch hSymbol
  have hDigit := not_digit_of_mismatch hNumber
  have hStringRest : (do let body ← many (choice [escapedChar, noneOf ['"', '\\']])
                         discard (char '"')
                         return .string (String.ofList body) : Rule Datum).Reads fun _ _ => True :=
    reads_bind (reads_many reads_stringChar) fun _ _ _ =>
      reads_bind (reads_discard (reads_char '"')) fun _ _ _ => reads_pure trivial
  have hQuote := head?_ne_of_stays hStringRest hString hString'
  have hBack := head?_ne_of_stays (reads_quotationRest hReads rfl) hQuasi hQuasi'
  have hComma := head?_ne_of_stays (reads_quotationRest hReads rfl) hUnquote hUnquote'
  rw [parenthesized_eq_onePass hReads hMoves] at hList
  have hOpen := head?_ne_of_stays (reads_onePassItems hReads) hList hList'
  cases hHead : c.rest.head? with
  | none => exact .inr rfl
  | some ch =>
    simp only [hHead, Option.any_some, Option.some.injEq, ne_eq]
      at hInitial hDigit hQuote hBack hComma hOpen
    by_cases hRewinding : ch ∈ rewinding
    · exact .inl ⟨ch, hRewinding, rfl⟩
    · refine .inr ?_
      simp only [rewinding, List.mem_cons, List.not_mem_nil, or_false, not_or] at hRewinding
      simp [isOpener, hInitial, hDigit, hQuote, hRewinding, hBack, hComma, hOpen]

/-- The alternatives of an expression. -/
def alternatives (expr : Rule Datum) : List (Rule Datum) :=
  [symbol, string, attempt number, attempt bool, attempt character, attempt float, attempt ratio,
    attempt complex, attempt (quoted expr), quasiquoted expr, unquoted expr, attempt (vector expr),
    parenthesized expr]

theorem expressionOf_eq_choice (expr : Rule Datum) : expressionOf expr = choice (alternatives expr) :=
  rfl

/-- The characters after which an expression that does not match does not move back. -/
def committing : List Char := ['"', '\x60', ',', '(']

/-- An alternative that does not match leaves the cursor alone unless it has read a committing character: it
starts with one that is not there, or it moves back, or it fails at the first character only. -/
theorem alternative_stays (hHead : ∀ ch ∈ committing, c.rest.head? ≠ some ch) :
    ∀ r ∈ alternatives expr, ∀ m next, r.run c = .mismatch m next → next = c := by
  have hMissing : ∀ {ch : Char} {f : Unit → Rule Datum} {m : Mismatch} {next : Cursor}, ch ∈ committing →
      (discard (char ch) >>= f).run c = .mismatch m next → next = c :=
    fun hMem => (refusesHere_of_char (hHead _ hMem) _).stays
  simp only [alternatives, List.forall_mem_cons, List.not_mem_nil, false_imp_iff, implies_true, and_true]
  exact ⟨fun _ _ h => (refusesHere_symbol (not_initial_of_mismatch h)).stays h,
    fun _ _ => hMissing (by simp [committing]), fun _ _ => attempt_stays, fun _ _ => attempt_stays,
    fun _ _ => attempt_stays, fun _ _ => attempt_stays, fun _ _ => attempt_stays, fun _ _ => attempt_stays,
    fun _ _ => attempt_stays, fun _ _ => hMissing (by simp [committing]),
    fun _ _ => hMissing (by simp [committing]), fun _ _ => attempt_stays,
    fun _ _ => hMissing (by simp [committing])⟩

theorem stays_of_not_committing (hHead : ∀ ch ∈ committing, c.rest.head? ≠ some ch)
    (h : (expressionOf expr).run c = .mismatch m next) : next = c := by
  rw [expressionOf_eq_choice] at h
  exact choiceFrom_stays (alternative_stays hHead) h

/-- A quotation and what starts with a sharp leave the cursor alone if they do not match. -/
theorem stays_of_rewinding {ch : Char} (hHead : c.rest.head? = some ch) (hRewinding : ch ∈ rewinding)
    (h : (expressionOf expr).run c = .mismatch m next) : next.offset = c.offset := by
  have hNone : ∀ ch ∈ rewinding, ch ∉ committing := Text.forall_mem_of_all (by decide)
  refine congrArg Cursor.offset (stays_of_not_committing (fun ch' hMem hEq => ?_) h)
  cases hHead.symm.trans hEq
  exact hNone ch hRewinding hMem

/-- What is taken back had come further. -/
theorem lt_position_of_rewinding (hReads : expr.Reads P) {ch : Char} (hHead : c.rest.head? = some ch)
    (hRewinding : ch ∈ rewinding) (h : (expressionOf expr).run c = .mismatch m next) :
    c.offset < m.position := by
  have hStay := stays_of_rewinding hHead hRewinding h
  rw [expressionOf_eq_integral] at h
  obtain ⟨-, hAll⟩ := refusals_of_choiceFrom h hStay
  simp only [List.forall_mem_cons, List.not_mem_nil, false_imp_iff, implies_true, and_true] at hAll
  obtain ⟨-, -, -, ⟨_, _, hBool, -, hBool'⟩, -, ⟨_, _, hQuoted, -, hQuoted'⟩, -⟩ := hAll
  obtain ⟨_, hBool⟩ := exists_run_of_attempt hBool
  obtain ⟨_, hQuoted⟩ := exists_run_of_attempt hQuoted
  obtain ⟨offset, rest⟩ := c
  obtain ⟨text, rfl⟩ := List.head?_eq_some_iff.mp hHead
  simp only [rewinding, List.mem_cons, List.not_mem_nil, or_false] at hRewinding
  rcases hRewinding with rfl | rfl
  · -- the quoted datum is missed behind the mark
    rw [quoted, quotation, run_bind_of_ok (run_discard_of_ok (run_char _ _ _))] at hQuoted
    obtain ⟨-, hLocated⟩ := (reads_quotationRest hReads rfl).of_mismatch hQuoted
    exact Nat.lt_of_lt_of_le (Nat.lt_succ_self offset) (hLocated.low.trans hQuoted')
  · rw [position_of_bool hBool] at hBool'
    exact hBool'

end Staying

/-! ## The first element of a list -/

section Elements

variable {expr : Rule Datum} {P : List Char → Datum → Prop} {c next : Cursor} {m : Mismatch}

theorem run_onePassItems_of_refuses (h : Refuses expr c) :
    (onePassItems expr).run c = (choice [listEnd [], dottedEnd expr []]).run c := by
  show ((optional expr).run c).andThen _ = _
  rw [run_optional_of_refuses h]
  rfl

theorem run_onePassItems_of_moved (h : expr.run c = .mismatch m next)
    (hMoved : next.offset ≠ c.offset) : (onePassItems expr).run c = .mismatch m next := by
  show ((optional expr).run c).andThen _ = _
  rw [run_optional_of_moved h hMoved]
  rfl

theorem run_onePassItems_of_abort {e : Error} (h : expr.run c = .abort e next) :
    (onePassItems expr).run c = .abort e next := by
  show ((optional expr).run c).andThen _ = _
  rw [run_optional_of_abort h]
  rfl

/-- Neither a list nor a dotted list ends here, and that is all that is said. -/
theorem expects_end (hClose : c.rest.head? ≠ some ')') (hDot : c.rest.head? ≠ some '.') :
    Expects (choice [listEnd [], dottedEnd expr []]) c [Text.quotedChar ')', Text.quotedChar '.'] := by
  have hBoth : List.Forall₂ (fun r texts => Expects r c texts) [listEnd [], dottedEnd expr []]
      [[Text.quotedChar ')'], [Text.quotedChar '.']] :=
    .cons ((expects_char hClose).discard.bind _) (.cons ((expects_char hDot).discard.bind _) .nil)
  exact expects_choice (List.cons_ne_nil _ _) hBoth

/-- An expression with an opening parenthesis first is what stands behind it. -/
theorem run_expressionOf_opened (hReads : expr.Reads P) (hMoves : ∀ w v, P w v → w ≠ [])
    (offset : Nat) (text : List Char) :
    (expressionOf expr).run ⟨offset, '(' :: text⟩ = (onePassItems expr).run ⟨offset + 1, text⟩ := by
  have hHere : ∀ r ∈ unparenthesized expr, RefusesHere r ⟨offset, '(' :: text⟩ :=
    refusesHere_unparenthesized (show isInitial '(' = false by decide +kernel) rfl (by simp)
  have hList : (parenthesized expr).run ⟨offset, '(' :: text⟩ =
      (onePassItems expr).run ⟨offset + 1, text⟩ := by
    rw [parenthesized_eq_onePass hReads hMoves, onePass,
      run_bind_of_ok (run_discard_of_ok (run_char _ _ _))]
  have hRefuses : ∀ r ∈ unparenthesized expr, Refuses r ⟨offset, '(' :: text⟩ := by
    intro r hr
    obtain ⟨m, hRun, -⟩ := hHere r hr
    exact ⟨m, hRun⟩
  rw [expressionOf_eq_integral]
  show (choice (unparenthesized expr ++ [parenthesized expr])).run _ = _
  cases hRun : (onePassItems expr).run ⟨offset + 1, text⟩ with
  | ok v next =>
    exact (run_choice_append (by simp) hRefuses).mpr (run_choice_of_run (by simp) (hList.trans hRun))
  | abort e next =>
    exact (run_choice_append (by simp) hRefuses).mpr (run_choice_of_run (by simp) (hList.trans hRun))
  | mismatch m next =>
    obtain ⟨⟨w, hReach⟩, hLocated⟩ := (reads_onePassItems hReads).of_mismatch hRun
    have hLow : offset + 1 ≤ m.position := hLocated.low
    have hOffset : next.offset = offset + 1 + w.length := hReach.offset
    exact run_choice_of_further hHere (hList.trans hRun) hLow (by show next.offset ≠ offset; omega)

end Elements

/-! ## The same mismatch further on -/

/-- An expression that does not match, read as the first element of a list with one level less. -/
theorem run_element {levels : Nat} {text : List Char} {m m' : Mismatch} {next next' : Cursor}
    (h : (expression (levels + 1)).run (.start text) = .mismatch m next)
    (h' : (onePassItems (expression levels)).run ⟨1, text⟩ = .mismatch m' next') :
    (expression levels).run ⟨1, text⟩ = .mismatch (m.shift 1) (next.shift 1) := by
  have hShift : (expression levels).run ⟨1, text⟩ = ((expression levels).run (.start text)).shift 1 :=
    uniform_expression levels 1 (.start text)
  rcases reading.approximates_within (Nat.le_succ levels) (.start text) with hSame | hDeep
  · have hRun : (expression levels).run (.start text) = .mismatch m next := Eq.trans hSame h
    rw [hShift, hRun]
    rfl
  · obtain ⟨last, hRun⟩ : ((expression levels).run (.start text)).TooDeep := hDeep
    rw [hRun] at hShift
    cases h'.symm.trans (run_onePassItems_of_abort hShift)

/-- After an element that has moved back, a list expects its end. -/
theorem mismatch_of_rewinding {expr : Rule Datum} {offset : Nat} {text : List Char} {m m' : Mismatch}
    {next' : Cursor} (hBack : ∃ ch ∈ rewinding, text.head? = some ch)
    (h : expr.run ⟨offset, text⟩ = .mismatch m ⟨offset, text⟩)
    (h' : (onePassItems expr).run ⟨offset, text⟩ = .mismatch m' next') :
    m' = .of offset [Text.quotedChar ')', Text.quotedChar '.'] (Cursor.mk offset text).found := by
  obtain ⟨ch, hRewinding, hHead⟩ := hBack
  have hNone : ∀ ch ∈ rewinding, ch ≠ ')' ∧ ch ≠ '.' := Text.forall_mem_of_all (by decide)
  obtain ⟨hClose, hDot⟩ := hNone ch hRewinding
  have hEnd : Expects (choice [listEnd [], dottedEnd expr []]) ⟨offset, text⟩ _ :=
    expects_end (by simpa [hHead] using hClose) (by simpa [hHead] using hDot)
  rw [run_onePassItems_of_refuses ⟨m, h⟩] at h'
  cases h'.symm.trans hEnd
  rfl

/-- If a text is no expression, and no expression with an opening parenthesis before it, then the mismatch
behind the parenthesis lies as far into the text as that without it, or further, unless the text starts
with the mark of a quotation or with a sharp. After these it lies at the very start of the text, whatever
was missed behind them. Once the cursor has moved, the mismatch is the same. -/
theorem nested_mismatch_iff {levels : Nat} {text : List Char} {m m' : Mismatch} {next next' : Cursor}
    (h : (expression levels).run (.start text) = .mismatch m next)
    (h' : (expression levels).run (.start ('(' :: text)) = .mismatch m' next') :
    (m.position + 1 ≤ m'.position ↔ ¬ ∃ ch ∈ rewinding, text.head? = some ch) ∧
    ((∃ ch ∈ rewinding, text.head? = some ch) →
      m' = .of 1 [Text.quotedChar ')', Text.quotedChar '.'] (Cursor.mk 1 text).found) ∧
    (next.offset ≠ 0 → m' = m.shift 1) := by
  cases levels with
  | zero => cases h
  | succ levels =>
    have hReads := reads_expression levels
    have hList : (onePassItems (expression levels)).run ⟨1, text⟩ = .mismatch m' next' :=
      (run_expressionOf_opened hReads ne_nil_of_denotesWithin 0 text).symm.trans h'
    have hElement := run_element h hList
    have hMovedOn : next.offset ≠ 0 → m' = m.shift 1 := by
      intro hMoved
      have hMoved' : (next.shift 1).offset ≠ 1 := fun hEq => hMoved (Nat.succ.inj hEq)
      cases hList.symm.trans (run_onePassItems_of_moved hElement hMoved')
      rfl
    by_cases hBack : ∃ ch ∈ rewinding, text.head? = some ch
    · obtain ⟨ch, hRewinding, hHead⟩ := hBack
      have hStay : next.offset = 0 := stays_of_rewinding (c := .start text) hHead hRewinding h
      have hFurther : 0 < m.position := lt_position_of_rewinding hReads hHead hRewinding h
      obtain ⟨⟨w, hReach⟩, -⟩ := (reads_expression (levels + 1)).of_mismatch h
      obtain ⟨-, rfl⟩ := hReach.eq_of_offset hStay
      have hEnd := mismatch_of_rewinding ⟨ch, hRewinding, hHead⟩ hElement hList
      have hPosition : m'.position = 1 := congrArg Mismatch.position hEnd
      exact ⟨iff_of_false (by omega) (not_not_intro ⟨ch, hRewinding, hHead⟩), fun _ => hEnd, hMovedOn⟩
    · refine ⟨iff_of_true ?_ hBack, fun hHead => absurd hHead hBack, hMovedOn⟩
      by_cases hStay : next.offset = 0
      · -- no expression starts here, and so its mismatch lies at the start
        have hNone := (head?_of_stays hReads ne_nil_of_denotesWithin h hStay).resolve_left hBack
        have hHere : RefusesHere (expression (levels + 1)) (.start text) :=
          refusesHere_expressionOf hNone
        have hStart : m.position = 0 := hHere.position h
        have hLow : 1 ≤ m'.position := ((reads_onePassItems hReads).of_mismatch hList).2.low
        omega
      · exact Nat.le_of_eq (congrArg Mismatch.position (hMovedOn hStay)).symm

/-- Behind a backquote the cursor has moved: what is missed there is missed in a list, too. -/
theorem nested_mismatch_iff_backquote : ∃ m m' next next',
    (expression 3).run (.start ['\x60']) = .mismatch m next ∧
    (expression 3).run (.start ['(', '\x60']) = .mismatch m' next' ∧
    m.position = 1 ∧ m' = m.shift 1 :=
  ⟨_, _, _, _, rfl, rfl, rfl, (@nested_mismatch_iff 3 ['\x60'] _ _ _ _ rfl rfl).2.2 (by decide)⟩

/-- The place of a mismatch is not always passed on: a quotation without a datum is missed at its end, and
in a list at its start. -/
theorem nested_mismatch_moves_back :
    ¬ ∀ (levels : Nat) (text : List Char) (m m' : Mismatch) (next next' : Cursor),
      (expression levels).run (.start text) = .mismatch m next →
      (expression levels).run (.start ('(' :: text)) = .mismatch m' next' →
      m.position + 1 ≤ m'.position := by
  intro h
  have hLe := h 3 ['\''] _ _ _ _ rfl rfl
  revert hLe
  decide

end MiniScheme.Grammar
