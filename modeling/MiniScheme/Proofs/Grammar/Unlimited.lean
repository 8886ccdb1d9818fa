import MiniScheme.Proofs.Grammar.Soundness
import MiniScheme.Proofs.Nesting.Recursion
import MiniScheme.Proofs.Reading.Limit

/-!
# Reading without a limit

The rules for data that hold data pass on that one of their parts is too deep
(`approximates_expressionOf`). An expression of more levels than there are characters ahead is never too
deep, because every level takes a character (`not_tooDeep_expression`). So there is an expression without a
limit, the only rule that reads its parts by itself (`eq_expressionOf_iff`).
-/

namespace MiniScheme.Grammar

open Rule

/-! ## Parts with fewer levels -/

section Approximation

variable {expr expr' : Rule Datum}

theorem approximates_quotation (mark : Char) (h : expr.Approximates expr') :
    (quotation mark expr).Approximates (quotation mark expr') :=
  (Approximates.refl _).bind fun _ => (Approximates.refl _).bind fun _ => h.bind fun _ => .refl _

theorem approximates_vector (h : expr.Approximates expr') : (vector expr).Approximates (vector expr') :=
  (Approximates.refl _).bind fun _ => (h.sepBy blanks).bind fun _ => .refl _

theorem approximates_closed (h : expr.Approximates expr') : (closed expr).Approximates (closed expr') :=
  h.bind fun _ => .refl _

theorem approximates_list (h : expr.Approximates expr') : (list expr).Approximates (list expr') :=
  (h.sepBy blanks).map Datum.list

theorem approximates_dottedList (h : expr.Approximates expr') :
    (dottedList expr).Approximates (dottedList expr') :=
  (h.endBy blanks).bind fun _ => (Approximates.refl _).bind fun _ => (Approximates.refl _).bind fun _ =>
    h.bind fun _ => .refl _

/-- The list and the dotted list read anew run out of levels alike. -/
theorem approximates_parenthesized (h : expr.Approximates expr') :
    (parenthesized expr).Approximates (parenthesized expr') := by
  refine (Approximates.refl _).bind fun _ => approximates_choice ?_
  exact .cons (approximates_closed (approximates_list h)).attempt
    (.cons (approximates_closed (approximates_dottedList h)) .nil)

theorem approximates_expressionOf (h : expr.Approximates expr') :
    (expressionOf expr).Approximates (expressionOf expr') := by
  refine approximates_choice ?_
  -- eight alternatives have no parts
  iterate 8 refine .cons (.refl _) ?_
  exact .cons (approximates_quotation _ h).attempt (.cons (approximates_quotation _ h)
    (.cons (approximates_quotation _ h) (.cons (approximates_vector h).attempt
    (.cons (approximates_parenthesized h) .nil))))

end Approximation

/-! ## Tokens are never too deep -/

section Tokens

variable {k : Nat}

theorem entry_ne_tooDeep {α : Type} (table : List (Char × α)) (key : Char) :
    entry table key ≠ .error .readingTooDeep := by
  unfold entry
  split
  · simp
  · simp

theorem ofCharacterText_ne_tooDeep (text : String) :
    Datum.ofCharacterText text ≠ .error .readingTooDeep := by
  unfold Datum.ofCharacterText
  split
  · simp
  · simp

theorem tooDeepAfter_blanks : blanks.TooDeepAfter k :=
  (tooDeepAfter_satisfy _ _).many1.discard

theorem tooDeepAfter_symbol : symbol.TooDeepAfter k := by
  have hInitial : (choice [letter, sign]).TooDeepAfter k := by
    refine tooDeepAfter_choice ?_
    simp only [List.forall_mem_cons, List.not_mem_nil, false_imp_iff, implies_true, and_true]
    exact ⟨tooDeepAfter_satisfy _ _, tooDeepAfter_satisfy _ _⟩
  have hSubsequent : (choice [letter, digit, sign]).TooDeepAfter k := by
    refine tooDeepAfter_choice ?_
    simp only [List.forall_mem_cons, List.not_mem_nil, false_imp_iff, implies_true, and_true]
    exact ⟨tooDeepAfter_satisfy _ _, tooDeepAfter_satisfy _ _, tooDeepAfter_satisfy _ _⟩
  exact hInitial.bind fun _ => hSubsequent.many.bind fun _ => tooDeepAfter_pure _

theorem tooDeepAfter_string : string.TooDeepAfter k := by
  have hEscaped : escapedChar.TooDeepAfter k :=
    (tooDeepAfter_satisfy _ _).discard.bind fun _ => (tooDeepAfter_satisfy _ _).bind fun _ =>
      tooDeepAfter_ofExcept (entry_ne_tooDeep _ _)
  have hChar : (choice [escapedChar, noneOf ['"', '\\']]).TooDeepAfter k := by
    refine tooDeepAfter_choice ?_
    simp only [List.forall_mem_cons, List.not_mem_nil, false_imp_iff, implies_true, and_true]
    exact ⟨hEscaped, tooDeepAfter_satisfy _ _⟩
  exact (tooDeepAfter_satisfy _ _).discard.bind fun _ => hChar.many.bind fun _ =>
    (tooDeepAfter_satisfy _ _).discard.bind fun _ => tooDeepAfter_pure _

theorem tooDeepAfter_bool : bool.TooDeepAfter k :=
  (tooDeepAfter_satisfy _ _).discard.bind fun _ => (tooDeepAfter_satisfy _ _).bind fun _ =>
    tooDeepAfter_pure _

theorem tooDeepAfter_character : character.TooDeepAfter k := by
  have hName : characterName.TooDeepAfter k := by
    refine tooDeepAfter_choice ?_
    simp only [List.forall_mem_cons, List.not_mem_nil, false_imp_iff, implies_true, and_true]
    exact ⟨tooDeepAfter_word _, tooDeepAfter_word _⟩
  have hLone : loneCharacter.TooDeepAfter k :=
    (tooDeepAfter_satisfy _ _).bind fun _ => (tooDeepAfter_notFollowedBy _).bind fun _ =>
      tooDeepAfter_pure _
  have hText : (choice [attempt characterName, loneCharacter]).TooDeepAfter k := by
    refine tooDeepAfter_choice ?_
    simp only [List.forall_mem_cons, List.not_mem_nil, false_imp_iff, implies_true, and_true]
    exact ⟨hName.attempt, hLone⟩
  exact (tooDeepAfter_word _).attempt.discard.bind fun _ => hText.bind fun _ =>
    tooDeepAfter_ofExcept (ofCharacterText_ne_tooDeep _)

theorem tooDeepAfter_digits : digits.TooDeepAfter k :=
  (tooDeepAfter_satisfy _ _).many1

theorem tooDeepAfter_decimal : decimal.TooDeepAfter k :=
  tooDeepAfter_digits.map _

theorem tooDeepAfter_markedNumeral (mark : String) {digit : Rule Char} (hDigit : digit.TooDeepAfter k)
    (value : List Char → Nat) : (markedNumeral mark digit value).TooDeepAfter k :=
  (tooDeepAfter_word mark).attempt.discard.bind fun _ => hDigit.many1.map value

theorem tooDeepAfter_number : number.TooDeepAfter k := by
  have hInteger : integer.TooDeepAfter k := by
    refine tooDeepAfter_choice ?_
    simp only [List.forall_mem_cons, List.not_mem_nil, false_imp_iff, implies_true, and_true]
    exact ⟨tooDeepAfter_decimal, tooDeepAfter_markedNumeral _ (tooDeepAfter_satisfy _ _) _,
      tooDeepAfter_markedNumeral _ (tooDeepAfter_satisfy _ _) _,
      tooDeepAfter_markedNumeral _ (tooDeepAfter_satisfy _ _) _,
      tooDeepAfter_markedNumeral _ (tooDeepAfter_satisfy _ _) _⟩
  exact (hInteger.bind fun _ => tooDeepAfter_pure _).map _

theorem tooDeepAfter_double : double.TooDeepAfter k :=
  tooDeepAfter_digits.bind fun _ => (tooDeepAfter_satisfy _ _).discard.bind fun _ =>
    tooDeepAfter_digits.bind fun _ => tooDeepAfter_pure _

theorem tooDeepAfter_ratio : ratio.TooDeepAfter k := by
  refine tooDeepAfter_decimal.bind fun _ => (tooDeepAfter_satisfy _ _).discard.bind fun _ => ?_
  have hOffset : Rule.offset.TooDeepAfter k := fun c => Nat.le_refl c.offset
  refine hOffset.bind fun _ => tooDeepAfter_decimal.bind fun den => ?_
  by_cases hZero : den = 0
  · rw [if_pos hZero]
    exact fun c => trivial
  · rw [if_neg hZero]
    exact tooDeepAfter_pure _

theorem tooDeepAfter_complex : complex.TooDeepAfter k := by
  have hPart : complexPart.TooDeepAfter k := by
    refine tooDeepAfter_choice ?_
    simp only [List.forall_mem_cons, List.not_mem_nil, false_imp_iff, implies_true, and_true]
    exact ⟨tooDeepAfter_double.attempt, tooDeepAfter_decimal.map _,
      (tooDeepAfter_markedNumeral _ (tooDeepAfter_satisfy _ _) _).map _⟩
  exact hPart.bind fun _ => (tooDeepAfter_satisfy _ _).discard.bind fun _ => hPart.bind fun _ =>
    (tooDeepAfter_satisfy _ _).discard.bind fun _ => tooDeepAfter_pure _

end Tokens

/-! ## Every level takes a character -/

section Levels

variable {expr : Rule Datum} {k : Nat}

theorem discard_char_moves (ch : Char) (c : Cursor) (a : Unit) (next : Cursor)
    (hRun : (discard (char ch)).run c = .ok a next) : c.offset + 1 ≤ next.offset := by
  obtain ⟨w, hReach, rfl⟩ := (reads_discard (reads_char ch)).of_ok hRun
  exact Nat.le_of_eq hReach.offset.symm

theorem discard_word_moves (c : Cursor) (a : Unit) (next : Cursor)
    (hRun : (discard (word "#(")).run c = .ok a next) : c.offset + 1 ≤ next.offset := by
  obtain ⟨w, hReach, rfl⟩ := (reads_discard ((reads_word "#(").mono fun _ _ h => h.1)).of_ok hRun
  have hOffset : next.offset = c.offset + 2 := hReach.offset
  omega

theorem tooDeepAfter_quotation (mark : Char) (h : expr.TooDeepAfter k) :
    (quotation mark expr).TooDeepAfter (k + 1) := by
  refine tooDeepAfter_bind (tooDeepAfter_satisfy _ _).discard (discard_char_moves mark) fun _ => ?_
  exact (tooDeepAfter_ofExcept (entry_ne_tooDeep _ _)).bind fun _ => h.bind fun _ => tooDeepAfter_pure _

theorem vectorOfBounds_ne_tooDeep (items : List Datum) :
    Datum.vectorOfBounds 0 (items.length - 1) items ≠ .error .readingTooDeep := by
  rw [vectorOfBounds_items]
  simp

theorem tooDeepAfter_vector (h : expr.TooDeepAfter k) : (vector expr).TooDeepAfter (k + 1) := by
  refine tooDeepAfter_bind (tooDeepAfter_word _).discard discard_word_moves fun _ => ?_
  exact (h.sepBy tooDeepAfter_blanks).bind fun items => (tooDeepAfter_satisfy _ _).discard.bind fun _ =>
    tooDeepAfter_ofExcept (vectorOfBounds_ne_tooDeep items)

theorem tooDeepAfter_closed (h : expr.TooDeepAfter k) : (closed expr).TooDeepAfter k :=
  h.bind fun _ => (tooDeepAfter_satisfy _ _).discard.bind fun _ => tooDeepAfter_pure _

theorem tooDeepAfter_list (h : expr.TooDeepAfter k) : (list expr).TooDeepAfter k :=
  (h.sepBy tooDeepAfter_blanks).map _

theorem tooDeepAfter_dottedList (h : expr.TooDeepAfter k) : (dottedList expr).TooDeepAfter k :=
  (h.endBy tooDeepAfter_blanks).bind fun _ => (tooDeepAfter_satisfy _ _).discard.bind fun _ =>
    tooDeepAfter_blanks.bind fun _ => h.bind fun _ => tooDeepAfter_pure _

theorem tooDeepAfter_parenthesized (h : expr.TooDeepAfter k) :
    (parenthesized expr).TooDeepAfter (k + 1) := by
  refine tooDeepAfter_bind (tooDeepAfter_satisfy _ _).discard (discard_char_moves '(') fun _ => ?_
  refine tooDeepAfter_choice ?_
  simp only [List.forall_mem_cons, List.not_mem_nil, false_imp_iff, implies_true, and_true]
  exact ⟨(tooDeepAfter_closed (tooDeepAfter_list h)).attempt,
    tooDeepAfter_closed (tooDeepAfter_dottedList h)⟩

theorem tooDeepAfter_expressionOf (h : expr.TooDeepAfter k) :
    (expressionOf expr).TooDeepAfter (k + 1) := by
  refine tooDeepAfter_choice ?_
  simp only [List.forall_mem_cons, List.not_mem_nil, false_imp_iff, implies_true, and_true]
  exact ⟨tooDeepAfter_symbol, tooDeepAfter_string, tooDeepAfter_number.attempt,
    tooDeepAfter_bool.attempt, tooDeepAfter_character.attempt, (tooDeepAfter_double.map _).attempt,
    tooDeepAfter_ratio.attempt, tooDeepAfter_complex.attempt, (tooDeepAfter_quotation _ h).attempt,
    tooDeepAfter_quotation _ h, tooDeepAfter_quotation _ h, (tooDeepAfter_vector h).attempt,
    tooDeepAfter_parenthesized h⟩

end Levels

theorem tooDeepAfter_expression (levels : Nat) : (expression levels).TooDeepAfter levels := by
  induction levels with
  | zero => exact tooDeepAfter_abort
  | succ levels ih => exact tooDeepAfter_expressionOf ih

/-- More levels than characters ahead are enough. -/
theorem not_tooDeep_expression {levels : Nat} {c : Cursor} (h : c.rest.length < levels) :
    ¬ ((expression levels).run c).TooDeep := by
  rintro ⟨next, hRun⟩
  obtain ⟨⟨w, hReach⟩, -⟩ := (reads_expression levels).of_abort hRun
  have hAfter := (tooDeepAfter_expression levels).of_abort hRun
  have hFinish := hReach.finish
  omega

/-! ## No limit -/

/-- Reading an expression, as a recursion by its levels. -/
def reading : LimitedRecursion Cursor (Outcome Datum) where
  step answer := (expressionOf ⟨answer⟩).run
  stepWithin _ answer := (expressionOf ⟨answer⟩).run
  TooDeep := Outcome.TooDeep
  within levels := (expression levels).run
  within_zero c := ⟨c, rfl⟩
  within_succ _ := rfl
  stepWithin_mono _ h := approximates_expressionOf h
  stepWithin_step _ _ _ h := approximates_expressionOf h
  levels c := c.rest.length + 1
  enough h := not_tooDeep_expression h

/-- An expression of any number of levels. -/
def unlimitedExpression : Rule Datum :=
  ⟨reading.unlimited⟩

/-- It is the only rule whose parts are read by itself. -/
theorem eq_expressionOf_iff (expr : Rule Datum) :
    expr = expressionOf expr ↔ expr = unlimitedExpression := by
  have hSolution := reading.eq_step_iff expr.run
  constructor
  · intro h
    have hRun : expr.run = reading.step expr.run := congrArg Rule.run h
    exact Rule.ext (congrFun (hSolution.mp hRun))
  · intro h
    have hRun : expr.run = reading.unlimited := congrArg Rule.run h
    exact Rule.ext (congrFun (hSolution.mpr hRun))

end MiniScheme.Grammar
