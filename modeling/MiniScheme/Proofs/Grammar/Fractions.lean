import MiniScheme.Proofs.Datum.Printed
import MiniScheme.Proofs.Grammar.Soundness
import MiniScheme.Proofs.Reading.Expectation
import MiniScheme.Read

/-!
# Fractions, ratios and complex numbers are not read

Three alternatives of an expression come too late: where one of them could succeed, an integer has been read
before. They run all the same wherever the alternatives before them refuse, and then they have mismatches of
their own. These say nothing new:

* without a mark ahead, the alternative for integers has expected a digit and the mark `#d` already;
* after a mark, the alternative for booleans has come further;
* after the mark `#d`, the alternative for integers has expected a digit at the same place.

So an expression without the three alternatives has the same outcome everywhere
(`expressionOf_eq_integral`), and no datum that is read holds such a number.
-/

namespace MiniScheme.Grammar

open Rule

/-! ## Expressions without the three alternatives -/

/-- An expression whose numbers are integers and whose parts are read by `expr`. -/
def integralExpressionOf (expr : Rule Datum) : Rule Datum :=
  choice [
    symbol,
    string,
    attempt number,
    attempt bool,
    attempt character,
    attempt (quoted expr),
    quasiquoted expr,
    unquoted expr,
    attempt (vector expr),
    parenthesized expr]

/-- An expression of at most the given number of levels, with integers only. -/
def integralExpression : Nat → Rule Datum
  | 0 => abort .readingTooDeep
  | levels + 1 => integralExpressionOf (integralExpression levels)

/-! ## Without a mark ahead -/

section Unmarked

variable {c : Cursor}

theorem expects_digits (h : c.rest.head?.any Char.isDigit = false) : Expects digits c ["digit"] :=
  (expects_satisfy h).bind _

theorem expects_decimal (h : c.rest.head?.any Char.isDigit = false) : Expects decimal c ["digit"] :=
  (expects_digits h).map _

theorem expects_double (h : c.rest.head?.any Char.isDigit = false) : Expects double c ["digit"] :=
  (expects_digits h).bind _

theorem expects_float (h : c.rest.head?.any Char.isDigit = false) : Expects float c ["digit"] :=
  (expects_double h).map _

theorem expects_ratio (h : c.rest.head?.any Char.isDigit = false) : Expects ratio c ["digit"] :=
  (expects_decimal h).bind _

theorem expects_markedNumeral {mark : String} {word : List Char} (hMark : mark.toList = '#' :: word)
    (h : c.rest.head? ≠ some '#') (digit : Rule Char) (value : List Char → Nat) :
    Expects (markedNumeral mark digit value) c [Text.quoted mark] :=
  (expects_word hMark h).attempt.discard.bind _

theorem expects_number (hDigit : c.rest.head?.any Char.isDigit = false)
    (hMark : c.rest.head? ≠ some '#') :
    Expects number c ["digit", Text.quoted "#d", Text.quoted "#x", Text.quoted "#o",
      Text.quoted "#b"] := by
  have hAll : List.Forall₂ (fun r texts => Expects r c texts)
      [decimal, markedDecimal, hex, octal, binary]
      [["digit"], [Text.quoted "#d"], [Text.quoted "#x"], [Text.quoted "#o"], [Text.quoted "#b"]] :=
    .cons (expects_decimal hDigit) (.cons (expects_markedNumeral rfl hMark _ _)
      (.cons (expects_markedNumeral rfl hMark _ _) (.cons (expects_markedNumeral rfl hMark _ _)
      (.cons (expects_markedNumeral rfl hMark _ _) .nil))))
  exact ((expects_choice (List.cons_ne_nil _ _) hAll).bind _).map _

theorem expects_complex (hDigit : c.rest.head?.any Char.isDigit = false)
    (hMark : c.rest.head? ≠ some '#') :
    Expects complex c ["digit", "digit", Text.quoted "#d"] := by
  have hAll : List.Forall₂ (fun r texts => Expects r c texts)
      [attempt double, Binary64.ofNat <$> decimal, Binary64.ofNat <$> markedDecimal]
      [["digit"], ["digit"], [Text.quoted "#d"]] :=
    .cons (expects_double hDigit).attempt (.cons ((expects_decimal hDigit).map _)
      (.cons ((expects_markedNumeral rfl hMark _ _).map _) .nil))
  exact (expects_choice (List.cons_ne_nil _ _) hAll).bind _

theorem expects_bool (hMark : c.rest.head? ≠ some '#') : Expects bool c [Text.quotedChar '#'] :=
  (expects_char hMark).discard.bind _

theorem expects_character (hMark : c.rest.head? ≠ some '#') :
    Expects character c [Text.quoted "#\\"] :=
  (expects_word rfl hMark).attempt.discard.bind _

end Unmarked

/-! ## After a mark -/

section Marked

variable {c : Cursor} {offset : Nat} {text : List Char}

theorem refusesHere_markedDecimal (h : ¬ ['#', 'd'] <+: c.rest) : RefusesHere markedDecimal c := by
  obtain ⟨m, hRun, hPosition⟩ := refusesHere_word "#d" h
  exact ⟨m, run_bind_of_mismatch (run_discard_of_mismatch hRun), hPosition⟩

theorem refusesHere_complex (hDigit : c.rest.head?.any Char.isDigit = false)
    (hMark : ¬ ['#', 'd'] <+: c.rest) : RefusesHere complex c := by
  refine (refusesHere_choice ?_).bind _
  simp only [List.forall_mem_cons, List.not_mem_nil, false_imp_iff, implies_true, and_true]
  exact ⟨(expects_double hDigit).attempt.refusesHere, (expects_decimal hDigit).refusesHere.map _,
    (refusesHere_markedDecimal hMark).map _⟩

theorem refusesHere_character (h : ¬ ['#', '\\'] <+: c.rest) : RefusesHere character c := by
  obtain ⟨m, hRun, hPosition⟩ := refusesHere_word "#\\" h
  exact ⟨m, run_bind_of_mismatch (run_discard_of_mismatch hRun), hPosition⟩

/-- A boolean is missed behind the mark. -/
theorem position_of_bool {m : Mismatch} {next : Cursor}
    (h : bool.run ⟨offset, '#' :: text⟩ = .mismatch m next) : m.position = offset + 1 := by
  rw [bool, run_bind_of_ok (run_discard_of_ok (run_char _ _ _)), oneOf] at h
  cases hText : text.head?.any ['t', 'f'].contains with
  | false =>
    rw [run_bind_of_mismatch (run_satisfy_of_not hText)] at h
    cases h
    rfl
  | true =>
    cases text with
    | nil => cases hText
    | cons ch rest =>
      rw [run_bind_of_ok (run_satisfy hText)] at h
      cases h

/-- The mark of base ten, and no digit behind it. -/
theorem run_markedDecimal_of_not (h : text.head?.any Char.isDigit = false) :
    markedDecimal.run ⟨offset, '#' :: 'd' :: text⟩ =
      .mismatch (.of (offset + 2) ["digit"] (Cursor.mk (offset + 2) text).found) ⟨offset + 2, text⟩ := by
  have hMark : (word "#d").run ⟨offset, '#' :: 'd' :: text⟩ = .ok "#d" ⟨offset + 2, text⟩ :=
    run_word offset "#d" text
  rw [markedDecimal, markedNumeral, run_bind_of_ok (run_discard_of_ok (run_attempt_of_ok hMark))]
  exact ((expects_satisfy h).bind _).map _

theorem run_number_of_not (h : text.head?.any Char.isDigit = false) :
    number.run ⟨offset, '#' :: 'd' :: text⟩ =
      .mismatch (.of (offset + 2) ["digit"] (Cursor.mk (offset + 2) text).found) ⟨offset + 2, text⟩ := by
  have hDecimal : ∀ r ∈ [decimal], RefusesHere r ⟨offset, '#' :: 'd' :: text⟩ :=
    List.forall_mem_singleton.mpr (expects_decimal rfl).refusesHere
  exact run_bind_of_mismatch (run_bind_of_mismatch
    (run_choice_of_further hDecimal (run_markedDecimal_of_not h) (by simp [Mismatch.of]) (by simp)))

theorem run_complex_of_not (h : text.head?.any Char.isDigit = false) :
    complex.run ⟨offset, '#' :: 'd' :: text⟩ =
      .mismatch (.of (offset + 2) ["digit"] (Cursor.mk (offset + 2) text).found) ⟨offset + 2, text⟩ := by
  have hOthers : ∀ r ∈ [attempt double, Binary64.ofNat <$> decimal],
      RefusesHere r ⟨offset, '#' :: 'd' :: text⟩ := by
    simp only [List.forall_mem_cons, List.not_mem_nil, false_imp_iff, implies_true, and_true]
    exact ⟨(expects_double rfl).attempt.refusesHere, (expects_decimal rfl).refusesHere.map _⟩
  exact run_bind_of_mismatch (run_choice_of_further hOthers
    (run_bind_of_mismatch (run_markedDecimal_of_not h)) (by simp [Mismatch.of]) (by simp))

end Marked

/-! ## Nothing new to say

In what follows `number`, `bool` and `character` have not matched, in this order, and their mismatches
were merged into `s`.
-/

section Silence

variable {c : Cursor} {s m m' m'' : Mismatch} {next next' next'' : Cursor}

theorem silent_of_unmarked (hNumber : number.run c = .mismatch m next)
    (hBool : bool.run c = .mismatch m' next') (hCharacter : character.run c = .mismatch m'' next'')
    (hDigit : c.rest.head?.any Char.isDigit = false) (hMark : c.rest.head? ≠ some '#') :
    ∀ r ∈ [float, ratio, complex], Silent r c (m''.merge (m'.merge (m.merge s))) := by
  cases hNumber.symm.trans (expects_number hDigit hMark)
  cases hBool.symm.trans (expects_bool hMark)
  cases hCharacter.symm.trans (expects_character hMark)
  have hKnows := ((Mismatch.knows_merge s c ["digit", Text.quoted "#d", Text.quoted "#x",
    Text.quoted "#o", Text.quoted "#b"]).merge_of [Text.quotedChar '#']).merge_of [Text.quoted "#\\"]
  simp only [List.forall_mem_cons, List.not_mem_nil, false_imp_iff, implies_true, and_true]
  refine ⟨⟨_, _, expects_float hDigit, hKnows.merge_of_subset ?_⟩,
    ⟨_, _, expects_ratio hDigit, hKnows.merge_of_subset ?_⟩,
    ⟨_, _, expects_complex hDigit hMark, hKnows.merge_of_subset ?_⟩⟩
  · simp
  · simp
  · simp

theorem silent_of_sharp {offset : Nat} {text : List Char} (hMark : ¬ ['#', 'd'] <+: '#' :: text)
    (hBool : bool.run ⟨offset, '#' :: text⟩ = .mismatch m' next') :
    ∀ r ∈ [float, ratio, complex], Silent r ⟨offset, '#' :: text⟩ (m''.merge (m'.merge s)) := by
  have hFurther : offset < (m''.merge (m'.merge s)).position := by
    rw [Mismatch.position_merge, Mismatch.position_merge, position_of_bool hBool]
    omega
  simp only [List.forall_mem_cons, List.not_mem_nil, false_imp_iff, implies_true, and_true]
  exact ⟨(expects_float rfl).refusesHere.silent hFurther,
    (expects_ratio rfl).refusesHere.silent hFurther,
    (refusesHere_complex rfl hMark).silent hFurther⟩

theorem silent_of_mark {offset : Nat} {text : List Char}
    (hNumber : number.run ⟨offset, '#' :: 'd' :: text⟩ = .mismatch m next)
    (hBool : bool.run ⟨offset, '#' :: 'd' :: text⟩ = .mismatch m' next')
    (hCharacter : character.run ⟨offset, '#' :: 'd' :: text⟩ = .mismatch m'' next'')
    (hDigit : text.head?.any Char.isDigit = false) :
    ∀ r ∈ [float, ratio, complex],
      Silent r ⟨offset, '#' :: 'd' :: text⟩ (m''.merge (m'.merge (m.merge s))) := by
  cases hNumber.symm.trans (run_number_of_not hDigit)
  obtain ⟨m₁, hRun, hPosition⟩ : RefusesHere character ⟨offset, '#' :: 'd' :: text⟩ :=
    refusesHere_character (by simp)
  cases hCharacter.symm.trans hRun
  -- the digit that is missing lies behind what booleans and characters miss
  have hKnows := Mismatch.knows_merge s ⟨offset + 2, text⟩ ["digit"]
  have hBool' : m'.position < offset + 2 := by
    rw [position_of_bool hBool]
    omega
  have hCharacter' : m''.position < offset + 2 := by
    rw [hPosition]
    exact Nat.lt_add_of_pos_right (by decide)
  rw [hKnows.merge_of_lt hBool', hKnows.merge_of_lt hCharacter']
  have hFurther := Nat.lt_of_lt_of_le (Nat.lt_add_of_pos_right (by decide)) hKnows.position_le
  simp only [List.forall_mem_cons, List.not_mem_nil, false_imp_iff, implies_true, and_true]
  exact ⟨(expects_float rfl).refusesHere.silent hFurther,
    (expects_ratio rfl).refusesHere.silent hFurther,
    ⟨_, _, run_complex_of_not hDigit, hKnows.merge_of_subset fun _ h => h⟩⟩

/-- The three alternatives are silent where those before them have not matched. -/
theorem silent_fractions (hNumber : number.run c = .mismatch m next)
    (hBool : bool.run c = .mismatch m' next') (hCharacter : character.run c = .mismatch m'' next'') :
    ∀ r ∈ [float, ratio, complex], Silent r c (m''.merge (m'.merge (m.merge s))) := by
  have hNot : ¬ StartsNumeral c.rest := by
    intro hStart
    obtain ⟨n, last, hRun⟩ := run_number_of_startsNumeral hStart c.offset
    cases hNumber.symm.trans hRun
  obtain ⟨offset, rest⟩ := c
  by_cases hMark : rest.head? = some '#'
  · obtain ⟨text, rfl⟩ := List.head?_eq_some_iff.mp hMark
    by_cases hDecimal : ['#', 'd'] <+: '#' :: text
    · obtain ⟨text, hText⟩ := hDecimal
      cases hText
      refine silent_of_mark hNumber hBool hCharacter ?_
      cases text with
      | nil => rfl
      | cons ch text =>
        rw [Bool.eq_false_iff]
        exact fun hDigit => hNot ⟨ch, text, hDigit, .inr rfl⟩
    · exact silent_of_sharp hDecimal hBool
  · refine silent_of_unmarked hNumber hBool hCharacter ?_ hMark
    cases rest with
    | nil => rfl
    | cons ch text =>
      rw [Bool.eq_false_iff]
      exact fun hDigit => hNot ⟨ch, text, hDigit, .inl rfl⟩

end Silence

/-! ## The same outcome -/

theorem expressionOf_eq_integral (expr : Rule Datum) : expressionOf expr = integralExpressionOf expr := by
  ext c
  refine choiceFrom_cons_congr reads_symbol fun m₁ _ => ?_
  refine choiceFrom_cons_congr reads_string fun m₂ _ => ?_
  refine choiceFrom_cons_congr (reads_attempt reads_number) fun m₃ hNumber => ?_
  refine choiceFrom_cons_congr (reads_attempt reads_bool) fun m₄ hBool => ?_
  refine choiceFrom_cons_congr (reads_attempt reads_character) fun m₅ hCharacter => ?_
  obtain ⟨next, hNumber⟩ := exists_run_of_attempt hNumber
  obtain ⟨next', hBool⟩ := exists_run_of_attempt hBool
  obtain ⟨next'', hCharacter⟩ := exists_run_of_attempt hCharacter
  exact choiceFrom_append_of_silent (silent_fractions hNumber hBool hCharacter) _

theorem expression_eq_integral (levels : Nat) : expression levels = integralExpression levels := by
  induction levels with
  | zero => rfl
  | succ levels ih => rw [expression, integralExpression, ← ih, expressionOf_eq_integral]

/-! ## The data that are read -/

/-- The names that marks stand for are symbols of the grammar. -/
theorem denotes_quotationName {name : String} (h : name ∈ ["quote", "quasiquote", "unquote"]) :
    Denotes name.toList (.symbol name) := by
  have hText : IsSymbolText name.toList := by
    simp only [List.mem_cons, List.not_mem_nil, or_false] at h
    rcases h with rfl | rfl | rfl
    all_goals exact ⟨by decide +kernel, Text.forall_mem_of_all (by decide +kernel)⟩
  simpa using Denotes.token (.symbol hText)

theorem Denotes.of_mem_list {w : List Char} {items : List Datum} (h : Denotes w (.list items)) :
    ∀ v ∈ items, ∃ w, Denotes w v := by
  have hQuotation : ∀ {name : String} {u : List Char} {datum : Datum},
      name ∈ ["quote", "quasiquote", "unquote"] → Denotes u datum →
      ∀ v ∈ [.symbol name, datum], ∃ w, Denotes w v := by
    intro name u datum hName hDatum
    refine List.forall_mem_cons.mpr ⟨⟨_, denotes_quotationName hName⟩, ?_⟩
    exact List.forall_mem_singleton.mpr ⟨u, hDatum⟩
  cases h with
  | token hToken => cases hToken
  | quote hDatum => exact hQuotation (by simp) hDatum
  | quasiquote hDatum => exact hQuotation (by simp) hDatum
  | unquote hDatum => exact hQuotation (by simp) hDatum
  | list hItems => exact hItems.forall_mem fun w _ hv => ⟨w, hv⟩

/-- A part of a datum that a text stands for is itself what some text stands for. -/
theorem Denotes.of_mem_parts {w : List Char} {v : Datum} (h : Denotes w v) :
    ∀ x ∈ v.parts, ∃ w, Denotes w x := by
  induction v using Datum.induction generalizing w with
  | list items ih =>
    refine Datum.forall_parts_list.mpr ⟨⟨w, h⟩, fun v hv => ?_⟩
    obtain ⟨u, hDenotes⟩ := h.of_mem_list v hv
    exact ih v hv hDenotes
  | vector items ih =>
    refine Datum.forall_parts_vector.mpr ⟨⟨w, h⟩, fun v hv => ?_⟩
    cases h with
    | token hToken => cases hToken
    | vector hItems =>
      obtain ⟨u, hDenotes⟩ := hItems.forall_mem (Q := fun v => ∃ w, Denotes w v)
        (fun w _ hv => ⟨w, hv⟩) v hv
      exact ih v hv hDenotes
  | dotted items tail ih ihTail =>
    cases h with
    | token hToken => cases hToken
    | dotted hItems hBlanks hTail =>
      refine Datum.forall_parts_dotted.mpr
        ⟨⟨_, .dotted hItems hBlanks hTail⟩, fun v hv => ?_, ihTail hTail⟩
      obtain ⟨u, hDenotes⟩ := hItems.forall_mem (Q := fun v => ∃ w, Denotes w v)
        (fun w _ hv => ⟨w, hv⟩) v hv
      exact ih v hv hDenotes
  | single v hParts =>
    rw [hParts]
    exact List.forall_mem_singleton.mpr ⟨w, h⟩

/-- The kinds of numbers that no text stands for. -/
def fractionalKinds : List Datum.Kind := [.float, .ratio, .complex]

theorem Denotes.kind_not_mem {w : List Char} {v : Datum} (h : Denotes w v) :
    v.kind ∉ fractionalKinds := by
  cases h with
  | token hToken => cases hToken <;> simp [Datum.kind, fractionalKinds]
  | _ => simp [Datum.kind, fractionalKinds]

theorem kind_not_mem_of_run {levels : Nat} {c next : Cursor} {v : Datum}
    (hRun : (expression levels).run c = .ok v next) : ∀ x ∈ v.parts, x.kind ∉ fractionalKinds := by
  obtain ⟨w, -, hDenotes, -⟩ := (reads_expression levels).of_ok hRun
  intro x hx
  obtain ⟨u, hDenotes'⟩ := hDenotes.of_mem_parts x hx
  exact hDenotes'.kind_not_mem

/-- Expressions without fractions, ratios and complex numbers have the same outcome as all expressions, from
every cursor and to any number of levels; and nothing that is read from a text holds such a number. -/
theorem fractions_make_no_difference :
    (∀ levels c, (expression levels).run c = (integralExpression levels).run c) ∧
    (∀ levels c v next, (expression levels).run c = .ok v next →
      ∀ x ∈ v.parts, x.kind ∉ fractionalKinds) ∧
    ∀ levels name source v, (readWithin levels name source).result = .ok v →
      ∀ x ∈ v.parts, x.kind ∉ fractionalKinds := by
  refine ⟨fun levels c => ?_, fun levels c v next hRun => kind_not_mem_of_run hRun, ?_⟩
  · rw [expression_eq_integral]
  · intro levels name source v hRead
    have hText : ∀ text, ∀ x ∈ (Datum.string text).parts, x.kind ∉ fractionalKinds := by
      intro text x hx
      simp only [Datum.parts, List.mem_singleton] at hx
      subst hx
      simp [Datum.kind, fractionalKinds]
    rw [readWithin] at hRead
    cases hRun : (expression levels).run (.start source.toList) with
    | ok datum next =>
      rw [hRun] at hRead
      cases hRead
      exact kind_not_mem_of_run hRun
    | mismatch m next =>
      rw [hRun] at hRead
      cases hRead
      exact hText _
    | abort e next =>
      obtain ⟨-, rfl⟩ := (reads_expression levels).of_abort hRun
      rw [hRun] at hRead
      cases hRead
      exact hText _

/-- The text of a complex number is read up to its point, and a dotted list with a vector has integers only. -/
theorem fractions_make_no_difference_complex :
    ((expression 1).run (.start "1.5+2.5i".toList) = .ok (.number 1) ⟨1, ".5+2.5i".toList⟩ ∧
      (Datum.number 1).kind ∉ fractionalKinds) ∧
    (readWithin 4 "s" "(a #(#d2 ()) . 3)/4").result =
        .ok (.dotted [.symbol "a", .vector [.number 2, .list []]] (.number 3)) ∧
      (Datum.list []).kind ∉ fractionalKinds := by
  have hNumber : (expression 1).run (.start "1.5+2.5i".toList) = .ok (.number 1) ⟨1, ".5+2.5i".toList⟩ := by
    rfl
  have hDotted : (readWithin 4 "s" "(a #(#d2 ()) . 3)/4").result =
      .ok (.dotted [.symbol "a", .vector [.number 2, .list []]] (.number 3)) := by
    rfl
  refine ⟨⟨hNumber, ?_⟩, hDotted, ?_⟩
  · exact fractions_make_no_difference.2.1 _ _ _ _ hNumber _ (Datum.self_mem_parts _)
  · exact fractions_make_no_difference.2.2 _ _ _ _ hDotted _ (by simp [Datum.parts, Datum.partsOf])

end MiniScheme.Grammar
