import MiniScheme.Proofs.Grammar.Shift
import MiniScheme.Proofs.Grammar.Unlimited
import MiniScheme.Proofs.Reading.Composed

/-!
# Reading comes to an end

Reading an expression calls for expressions inside it (`Calls`). A call is told from what happens when it is
cut off: no rule takes that back, so the caller is cut off at the same place. What is not called makes no
difference to the caller.

An expression is put together from its parts in such a way that everything it repeats ends
(`composed_expressionOf`), and it reads a character before it calls for a part. So every call starts further on
in the text than its caller, and there are never more calls inside each other than characters ahead and one
(`reading_terminates`).
-/

namespace MiniScheme.Grammar

open Rule

/-! ## Tokens -/

section Tokens

variable {π : Type} {part : Rule π}

theorem composed_blanks : Composed part blanks :=
  ((Composed.satisfy _ _).many1 (ends_satisfy _ _)).discard

theorem ends_subsequent : Ends (choice [letter, digit, sign]) := by
  refine ends_of_reads (P := fun w _ => w ≠ []) (reads_choice ?_) fun _ _ h => h
  have hChar : ∀ (p : Char → Bool) (expected : List String),
      (satisfy p expected).Reads fun w _ => w ≠ [] := by
    intro p expected
    refine (reads_satisfy p expected).mono ?_
    rintro w ch ⟨rfl, -⟩
    exact List.cons_ne_nil ch []
  simp only [List.forall_mem_cons, List.not_mem_nil, false_imp_iff, implies_true, and_true]
  exact ⟨hChar _ _, hChar _ _, hChar _ _⟩

theorem composed_symbol : Composed part symbol := by
  have hInitial : Composed part (choice [letter, sign]) := by
    refine .choice ?_
    simp only [List.forall_mem_cons, List.not_mem_nil, false_imp_iff, implies_true, and_true]
    exact ⟨.satisfy _ _, .satisfy _ _⟩
  have hSubsequent : Composed part (choice [letter, digit, sign]) := by
    refine .choice ?_
    simp only [List.forall_mem_cons, List.not_mem_nil, false_imp_iff, implies_true, and_true]
    exact ⟨.satisfy _ _, .satisfy _ _, .satisfy _ _⟩
  exact hInitial.bind fun _ => (hSubsequent.many ends_subsequent).bind fun _ => .pure _

theorem ends_stringChar : Ends (choice [escapedChar, noneOf ['"', '\\']]) := by
  refine ends_of_reads reads_stringChar ?_
  rintro w ch (⟨letter, rfl, -⟩ | ⟨rfl, -⟩)
  · exact List.cons_ne_nil _ _
  · exact List.cons_ne_nil _ _

theorem composed_string : Composed part string := by
  have hEscaped : Composed part escapedChar :=
    (Composed.satisfy _ _).discard.bind fun _ => (Composed.satisfy _ _).bind fun _ =>
      .ofExcept (entry_ne_tooDeep _ _)
  have hChar : Composed part (choice [escapedChar, noneOf ['"', '\\']]) := by
    refine .choice ?_
    simp only [List.forall_mem_cons, List.not_mem_nil, false_imp_iff, implies_true, and_true]
    exact ⟨hEscaped, .satisfy _ _⟩
  exact (Composed.satisfy _ _).discard.bind fun _ => (hChar.many ends_stringChar).bind fun _ =>
    (Composed.satisfy _ _).discard.bind fun _ => .pure _

theorem composed_bool : Composed part bool :=
  (Composed.satisfy _ _).discard.bind fun _ => (Composed.satisfy _ _).bind fun _ => .pure _

theorem composed_character : Composed part character := by
  have hName : Composed part characterName := by
    refine .choice ?_
    simp only [List.forall_mem_cons, List.not_mem_nil, false_imp_iff, implies_true, and_true]
    exact ⟨.word _, .word _⟩
  have hLone : Composed part loneCharacter :=
    (Composed.satisfy _ _).bind fun _ => (Composed.notFollowedBy _).bind fun _ => .pure _
  have hText : Composed part (choice [attempt characterName, loneCharacter]) := by
    refine .choice ?_
    simp only [List.forall_mem_cons, List.not_mem_nil, false_imp_iff, implies_true, and_true]
    exact ⟨hName.attempt, hLone⟩
  exact (Composed.word _).attempt.discard.bind fun _ => hText.bind fun _ =>
    .ofExcept (ofCharacterText_ne_tooDeep _)

theorem composed_digits : Composed part digits :=
  (Composed.satisfy _ _).many1 (ends_satisfy _ _)

theorem composed_decimal : Composed part decimal :=
  composed_digits.map _

theorem composed_markedNumeral (mark : String) (p : Char → Bool) (expected : List String)
    (value : List Char → Nat) : Composed part (markedNumeral mark (satisfy p expected) value) :=
  (Composed.word mark).attempt.discard.bind fun _ =>
    ((Composed.satisfy p expected).many1 (ends_satisfy p expected)).map value

theorem composed_number : Composed part number := by
  refine ((Composed.choice ?_).bind fun _ => .pure _).map _
  simp only [List.forall_mem_cons, List.not_mem_nil, false_imp_iff, implies_true, and_true]
  exact ⟨composed_decimal, composed_markedNumeral _ _ _ _, composed_markedNumeral _ _ _ _,
    composed_markedNumeral _ _ _ _, composed_markedNumeral _ _ _ _⟩

theorem composed_double : Composed part double :=
  composed_digits.bind fun _ => (Composed.satisfy _ _).discard.bind fun _ => composed_digits.bind fun _ =>
    .pure _

theorem composed_ratio : Composed part ratio := by
  refine composed_decimal.bind fun _ => (Composed.satisfy _ _).discard.bind fun _ =>
    Composed.offset.bind fun _ => composed_decimal.bind fun den => ?_
  by_cases hZero : den = 0
  · rw [if_pos hZero]
    exact .mismatch _
  · rw [if_neg hZero]
    exact .pure _

theorem composed_complex : Composed part complex := by
  have hPart : Composed part complexPart := by
    refine .choice ?_
    simp only [List.forall_mem_cons, List.not_mem_nil, false_imp_iff, implies_true, and_true]
    exact ⟨composed_double.attempt, composed_decimal.map _, (composed_markedNumeral _ _ _ _).map _⟩
  exact hPart.bind fun _ => (Composed.satisfy _ _).discard.bind fun _ => hPart.bind fun _ =>
    (Composed.satisfy _ _).discard.bind fun _ => .pure _

end Tokens

/-! ## Data that hold data -/

section Parts

variable {expr : Rule Datum} {P : List Char → Datum → Prop}

theorem composed_quotation (mark : Char) : Composed expr (quotation mark expr) :=
  (Composed.satisfy _ _).discard.bind fun _ => (Composed.ofExcept (entry_ne_tooDeep _ _)).bind fun _ =>
    Composed.part.bind fun _ => .pure _

/-- The blanks between two items move the cursor, whatever the items do. -/
theorem composed_items (hReads : expr.Reads P) : Composed expr (sepBy expr blanks) := by
  refine Composed.part.sepBy composed_blanks (ends_of_reads (P := fun w _ => w ≠ []) ?_ fun _ _ h => h)
  refine reads_bind (reads_discard reads_blanks) fun s _ hs => hReads.mono fun w _ _ => ?_
  exact List.append_ne_nil_of_left_ne_nil hs.1 w

theorem composed_endedItems (hReads : expr.Reads P) : Composed expr (endBy expr blanks) := by
  refine Composed.part.endBy composed_blanks (ends_of_reads (P := fun w _ => w ≠ []) ?_ fun _ _ h => h)
  refine reads_bind hReads fun w _ _ => reads_bind (reads_discard reads_blanks) fun s _ hs => ?_
  refine reads_pure (List.append_ne_nil_of_right_ne_nil w ?_)
  exact List.append_ne_nil_of_left_ne_nil hs.1 []

theorem composed_vector (hReads : expr.Reads P) : Composed expr (vector expr) :=
  (Composed.word _).discard.bind fun _ => (composed_items hReads).bind fun items =>
    (Composed.satisfy _ _).discard.bind fun _ => .ofExcept (vectorOfBounds_ne_tooDeep items)

theorem composed_closed {r : Rule Datum} (h : Composed expr r) : Composed expr (closed r) :=
  h.bind fun _ => (Composed.satisfy _ _).discard.bind fun _ => .pure _

theorem composed_dottedList (hReads : expr.Reads P) : Composed expr (dottedList expr) :=
  (composed_endedItems hReads).bind fun _ => (Composed.satisfy _ _).discard.bind fun _ =>
    composed_blanks.bind fun _ => Composed.part.bind fun _ => .pure _

theorem composed_parenthesized (hReads : expr.Reads P) : Composed expr (parenthesized expr) := by
  refine (Composed.satisfy _ _).discard.bind fun _ => .choice ?_
  simp only [List.forall_mem_cons, List.not_mem_nil, false_imp_iff, implies_true, and_true]
  exact ⟨(composed_closed ((composed_items hReads).map _)).attempt,
    composed_closed (composed_dottedList hReads)⟩

/-- An expression is put together from its parts, and everything that it repeats ends. -/
theorem composed_expressionOf (hReads : expr.Reads P) : Composed expr (expressionOf expr) := by
  refine .choice ?_
  simp only [List.forall_mem_cons, List.not_mem_nil, false_imp_iff, implies_true, and_true]
  exact ⟨composed_symbol, composed_string, composed_number.attempt, composed_bool.attempt,
    composed_character.attempt, (composed_double.map _).attempt, composed_ratio.attempt,
    composed_complex.attempt, (composed_quotation _).attempt, composed_quotation _, composed_quotation _,
    (composed_vector hReads).attempt, composed_parenthesized hReads⟩

end Parts

/-! ## Calls -/

/-- The rule, but at the given place nesting is too deep for it. -/
def cutOff (place : Cursor) (expr : Rule Datum) : Rule Datum :=
  ⟨fun c => if c = place then .abort .readingTooDeep c else expr.run c⟩

/-- Reading at `c` calls for an expression at `place`: were the call cut off, reading would be cut off. -/
def Calls (c place : Cursor) : Prop :=
  ((expressionOf (cutOff place unlimitedExpression)).run c).TooDeep

theorem run_cutOff_self (place : Cursor) (expr : Rule Datum) :
    (cutOff place expr).run place = .abort .readingTooDeep place :=
  if_pos rfl

theorem run_cutOff_of_ne {c place : Cursor} (h : c ≠ place) (expr : Rule Datum) :
    (cutOff place expr).run c = expr.run c :=
  if_neg h

theorem reads_unlimitedExpression : unlimitedExpression.Reads Denotes := by
  intro c
  have hMeets := reads_expression (c.rest.length + 1) c
  exact hMeets.mono fun w v _ h => h.1

theorem reads_cutOff (place : Cursor) : (cutOff place unlimitedExpression).Reads Denotes := by
  intro c
  by_cases hHere : c = place
  · subst hHere
    rw [run_cutOff_self]
    exact ⟨⟨[], .refl c⟩, rfl⟩
  · rw [run_cutOff_of_ne hHere]
    exact reads_unlimitedExpression c

theorem cutOffAt_cutOff (place : Cursor) : (cutOff place unlimitedExpression).CutOffAt place := by
  refine fun c => ⟨(reads_cutOff place c).reaches, fun hDeep => ?_⟩
  by_cases hHere : c = place
  · subst hHere
    rw [run_cutOff_self]
    rfl
  · rw [run_cutOff_of_ne hHere] at hDeep
    exact absurd hDeep (reading.unlimited_not_tooDeep c)

/-- A call starts further on in the text ahead of its caller. -/
theorem Calls.reaches {c place : Cursor} (h : Calls c place) : ∃ w, w ≠ [] ∧ c.Reaches w place := by
  obtain ⟨next, hRun⟩ := h
  have hCut := (composed_expressionOf (reads_cutOff place)).cutOffAt (cutOffAt_cutOff place) c
  have hAfter := (tooDeepAfter_expressionOf (tooDeepAfter_of_reads (reads_cutOff place))).of_abort hRun
  rw [hRun] at hCut
  obtain ⟨w, hReach⟩ := hCut.reaches
  obtain rfl : next = place := hCut.place_of_tooDeep ⟨next, rfl⟩
  refine ⟨w, ?_, hReach⟩
  rintro rfl
  have hOffset : next.offset = c.offset := hReach.offset
  omega

end MiniScheme.Grammar
