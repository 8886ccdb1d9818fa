import MiniScheme.Proofs.Grammar.Soundness
import MiniScheme.Proofs.Reading.Shift

/-!
# Expressions do not depend on where they start

All rules of the grammar are uniform, and so are expressions (`uniform_expression`). A ratio is the only one
that looks at the offset, and it does so only to tell where its denominator starts. Hence a text is read alike
whether it stands alone or other text stands before it (`expression_behind_text`).
-/

namespace MiniScheme.Grammar

open Rule

/-! ## Tokens -/

theorem uniform_blanks : Uniform blanks :=
  (uniform_satisfy _ _).many1.discard

theorem uniform_symbol : Uniform symbol := by
  have hInitial : Uniform (choice [letter, sign]) := by
    refine uniform_choice ?_
    simp only [List.forall_mem_cons, List.not_mem_nil, false_imp_iff, implies_true, and_true]
    exact ⟨uniform_satisfy _ _, uniform_oneOf _ _⟩
  have hSubsequent : Uniform (choice [letter, digit, sign]) := by
    refine uniform_choice ?_
    simp only [List.forall_mem_cons, List.not_mem_nil, false_imp_iff, implies_true, and_true]
    exact ⟨uniform_satisfy _ _, uniform_satisfy _ _, uniform_oneOf _ _⟩
  exact hInitial.bind fun _ => hSubsequent.many.bind fun _ => uniform_pure _

theorem uniform_escapedChar : Uniform escapedChar :=
  (uniform_char _).discard.bind fun _ => (uniform_oneOf _ _).bind fun _ => uniform_ofExcept _

theorem uniform_string : Uniform string := by
  have hItem : Uniform (choice [escapedChar, noneOf ['"', '\\']]) := by
    refine uniform_choice ?_
    simp only [List.forall_mem_cons, List.not_mem_nil, false_imp_iff, implies_true, and_true]
    exact ⟨uniform_escapedChar, uniform_satisfy _ _⟩
  exact (uniform_char _).discard.bind fun _ => hItem.many.bind fun _ =>
    (uniform_char _).discard.bind fun _ => uniform_pure _

theorem uniform_markedNumeral (mark : String) {digit : Rule Char} (hDigit : Uniform digit)
    (value : List Char → Nat) : Uniform (markedNumeral mark digit value) :=
  (uniform_word mark).attempt.discard.bind fun _ => hDigit.many1.map value

theorem uniform_digits : Uniform digits :=
  (uniform_satisfy _ _).many1

theorem uniform_decimal : Uniform decimal :=
  uniform_digits.map _

theorem uniform_number : Uniform number := by
  refine ((uniform_choice ?_).bind fun _ => uniform_pure _).map _
  simp only [List.forall_mem_cons, List.not_mem_nil, false_imp_iff, implies_true, and_true]
  exact ⟨uniform_decimal, uniform_markedNumeral _ (uniform_satisfy _ _) _,
    uniform_markedNumeral _ (uniform_satisfy _ _) _, uniform_markedNumeral _ (uniform_satisfy _ _) _,
    uniform_markedNumeral _ (uniform_satisfy _ _) _⟩

theorem uniform_double : Uniform double :=
  uniform_digits.bind fun _ => (uniform_char _).discard.bind fun _ => uniform_digits.bind fun _ =>
    uniform_pure _

theorem uniform_ratio : Uniform ratio := by
  refine uniform_decimal.bind fun num => (uniform_char _).discard.bind fun _ => ?_
  -- The offset that is remembered moves along with the mismatch that tells it.
  intro k c
  simp only [Rule.offset, run_bind, Outcome.andThen, uniform_decimal k c]
  cases decimal.run c with
  | ok den next =>
    by_cases hZero : den = 0
    · simp only [Outcome.shift, hZero, if_true]
      rfl
    · simp only [Outcome.shift, hZero, if_false]
      rfl
  | mismatch m next => rfl
  | abort e next => rfl

theorem uniform_complex : Uniform complex := by
  have hPart : Uniform complexPart := by
    refine uniform_choice ?_
    simp only [List.forall_mem_cons, List.not_mem_nil, false_imp_iff, implies_true, and_true]
    exact ⟨uniform_double.attempt, uniform_decimal.map _,
      (uniform_markedNumeral _ (uniform_satisfy _ _) _).map _⟩
  exact hPart.bind fun _ => (uniform_char _).discard.bind fun _ => hPart.bind fun _ =>
    (uniform_char _).discard.bind fun _ => uniform_pure _

theorem uniform_bool : Uniform bool :=
  (uniform_char _).discard.bind fun _ => (uniform_oneOf _ _).bind fun _ => uniform_pure _

theorem uniform_character : Uniform character := by
  have hName : Uniform characterName := by
    refine uniform_choice ?_
    simp only [List.forall_mem_cons, List.not_mem_nil, false_imp_iff, implies_true, and_true]
    exact ⟨uniform_word _, uniform_word _⟩
  have hLone : Uniform loneCharacter :=
    (uniform_satisfy _ _).bind fun _ => (uniform_notFollowedBy _).bind fun _ => uniform_pure _
  have hText : Uniform (choice [attempt characterName, loneCharacter]) := by
    refine uniform_choice ?_
    simp only [List.forall_mem_cons, List.not_mem_nil, false_imp_iff, implies_true, and_true]
    exact ⟨hName.attempt, hLone⟩
  exact (uniform_word _).attempt.discard.bind fun _ => hText.bind fun _ => uniform_ofExcept _

/-! ## Data that hold data -/

section Parts

variable {expr : Rule Datum} (h : Uniform expr)

include h

theorem uniform_quotation (mark : Char) : Uniform (quotation mark expr) :=
  (uniform_char mark).discard.bind fun _ => (uniform_ofExcept _).bind fun _ => h.bind fun _ =>
    uniform_pure _

theorem uniform_vector : Uniform (vector expr) :=
  (uniform_word _).discard.bind fun _ => (h.sepBy uniform_blanks).bind fun _ =>
    (uniform_char _).discard.bind fun _ => uniform_ofExcept _

theorem uniform_parenthesized : Uniform (parenthesized expr) := by
  have hList : Uniform (list expr) := (h.sepBy uniform_blanks).map _
  have hDotted : Uniform (dottedList expr) :=
    (h.endBy uniform_blanks).bind fun _ => (uniform_char _).discard.bind fun _ =>
      uniform_blanks.bind fun _ => h.bind fun _ => uniform_pure _
  have hClosed : ∀ {r : Rule Datum}, Uniform r → Uniform (closed r) :=
    fun hr => hr.bind fun _ => (uniform_char _).discard.bind fun _ => uniform_pure _
  refine (uniform_char _).discard.bind fun _ => uniform_choice ?_
  simp only [List.forall_mem_cons, List.not_mem_nil, false_imp_iff, implies_true, and_true]
  exact ⟨(hClosed hList).attempt, hClosed hDotted⟩

theorem uniform_expressionOf : Uniform (expressionOf expr) := by
  refine uniform_choice ?_
  simp only [List.forall_mem_cons, List.not_mem_nil, false_imp_iff, implies_true, and_true]
  exact ⟨uniform_symbol, uniform_string, uniform_number.attempt, uniform_bool.attempt,
    uniform_character.attempt, (uniform_double.map _).attempt, uniform_ratio.attempt,
    uniform_complex.attempt, (uniform_quotation h _).attempt, uniform_quotation h _,
    uniform_quotation h _, (uniform_vector h).attempt, uniform_parenthesized h⟩

end Parts

/-- An expression is read the same wherever it starts. -/
theorem uniform_expression (levels : Nat) : Uniform (expression levels) := by
  induction levels with
  | zero => exact uniform_abort _
  | succ levels ih => exact uniform_expressionOf ih

/-- Whatever becomes of reading, the cursor stays in the text. -/
theorem next_inside (levels : Nat) (text : List Char) :
    ((expression levels).run (.inside text 0)).next =
      .inside text ((expression levels).run (.inside text 0)).next.offset := by
  obtain ⟨w, hReach⟩ := (reads_expression levels (.inside text 0)).reaches
  exact hReach.eq_inside

/-- Reading a text that stands behind another one has the same outcome as reading it alone: the same value or
the same mismatch, with the offset of the mismatch and the cursor further on by the length of the text in
front. -/
theorem expression_behind_text (levels : Nat) (before text : List Char) :
    let alone := (expression levels).run (.inside text 0)
    let behind := (expression levels).run (.inside (before ++ text) before.length)
    behind = alone.shift before.length ∧
    behind.next = .inside (before ++ text) (alone.next.offset + before.length) := by
  intro alone behind
  have hShift : behind = alone.shift before.length :=
    (uniform_expression levels).run_inside before text
  refine ⟨hShift, ?_⟩
  rw [hShift, Outcome.next_shift, ← Cursor.shift_inside, ← next_inside]

end MiniScheme.Grammar
