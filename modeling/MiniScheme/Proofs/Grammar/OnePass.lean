import MiniScheme.Proofs.Grammar.Completeness

/-!
# Lists in one pass

`parenthesized` reads the elements between two parentheses up to twice: as a list first and, if that does
not match, as a dotted list from the opening parenthesis on. `onePass` never goes back. It reads an element,
and after it either the closing parenthesis, or blanks and then the next element or the dot.

Both rules have the same outcome at every cursor, mismatches included (`parenthesized_eq_onePass`), and so
one may stand for the other at every depth (`expression_eq_onePass`). After each element the two tries of
`parenthesized` are put side by side. They see the same elements at the same cursors, and as long as another
element follows, neither of them has stopped. Where they stop, the mismatch of the second is merged into that
of the first, which is what the alternatives of `onePass` do with theirs.
-/

namespace MiniScheme.Grammar

open Rule

/-! ## The rule -/

/-- The end of a list. -/
def listEnd (items : List Datum) : Rule Datum := do
  discard (char ')')
  return .list items

/-- The end of a dotted list, from the dot on. -/
def dottedEnd (expr : Rule Datum) (items : List Datum) : Rule Datum := do
  discard (char '.')
  blanks
  let tail ← expr
  discard (char ')')
  return .dotted items tail

/-- What follows the last of the items so far: the end of the list, or blanks and then another item or the
end of a dotted list. Every further item takes a character, so that a text `ahead` longer than the one that
is left holds one for each of them. -/
def afterItem (expr : Rule Datum) : List Char → List Datum → Rule Datum
  | [], items => listEnd items
  | _ :: ahead, items =>
    choice [
      listEnd items,
      do
        blanks
        choice [
          do
            let item ← expr
            afterItem expr ahead (items ++ [item]),
          dottedEnd expr items]]

/-- The text that is left. -/
def textAhead : Rule (List Char) :=
  ⟨fun c => .ok c.rest c⟩

/-- What stands between two parentheses, without the opening one. -/
def onePassItems (expr : Rule Datum) : Rule Datum := do
  let ahead ← textAhead
  match ← optional expr with
  | none => choice [listEnd [], dottedEnd expr []]
  | some first => afterItem expr ahead [first]

/-- A list or a dotted list, each of its elements read once. -/
def onePass (expr : Rule Datum) : Rule Datum := do
  discard (char '(')
  onePassItems expr

/-- An expression of at most the given number of levels that reads all lists in one pass. -/
def onePassExpression : Nat → Rule Datum
  | 0 => abort .readingTooDeep
  | levels + 1 =>
    let expr := onePassExpression levels
    choice (tokenRules ++ [attempt (quoted expr), quasiquoted expr, unquoted expr,
      attempt (vector expr), onePass expr])

/-! ## The two tries -/

/-- What follows an item if it is one of a list. -/
def listAfter (expr : Rule Datum) (items : List Datum) : Rule Datum := do
  let others ← many (do discard blanks; expr)
  listEnd (items ++ others)

/-- What follows an item if it is one of a dotted list. -/
def dottedAfter (expr : Rule Datum) (items : List Datum) : Rule Datum := do
  discard blanks
  let others ← endBy expr blanks
  dottedEnd expr (items ++ others)

theorem closed_list_eq (expr : Rule Datum) :
    closed (list expr) = sepBy expr blanks >>= listEnd := by
  simp only [closed, list, map_eq_pure_bind, bind_assoc, pure_bind]
  rfl

theorem closed_dottedList_eq (expr : Rule Datum) :
    closed (dottedList expr) = endBy expr blanks >>= dottedEnd expr := by
  simp only [closed, dottedList, bind_assoc, pure_bind]
  rfl

/-- Blanks are refused, or read up to a cursor further on. -/
theorem run_blanks_cases (c : Cursor) :
    Refuses blanks c ∨
      ∃ next, blanks.run c = .ok () next ∧ c.offset < next.offset ∧ c.rest.head? ≠ some ')' := by
  obtain ⟨offset, text⟩ := c
  cases text with
  | nil => exact .inl (refuses_blanks rfl)
  | cons ch text =>
    by_cases hBlank : Text.isBlank ch = true
    · have hRun : blanks.run ⟨offset, ch :: text⟩ = _ := run_discard_of_ok
        ((run_bind_of_ok ((isClass_satisfy Text.isBlank _).run hBlank)).trans
          (run_bind_of_ok ((isClass_satisfy Text.isBlank _).run_many _ _)))
      refine .inr ⟨_, hRun, by simp only; omega, ?_⟩
      rintro ⟨⟩
      cases hBlank
    · refine .inl (refuses_blanks ?_)
      simpa using hBlank

section Tries

variable {expr : Rule Datum} {P : List Char → Datum → Prop} {c middle next : Cursor} {v : Datum}
  {items : List Datum}

/-! ### The first element -/

theorem closed_list_of_ok (hRun : expr.run c = .ok v next) :
    (closed (list expr)).run c = (listAfter expr [v]).run next := by
  rw [closed_list_eq, sepBy, bind_assoc, run_bind_of_ok (run_optional_of_ok hRun)]
  simp only [bind_assoc, pure_bind]
  rfl

theorem closed_list_of_refuses (h : Refuses expr c) :
    (closed (list expr)).run c = (listEnd []).run c := by
  rw [closed_list_eq, sepBy, bind_assoc, run_bind_of_ok (run_optional_of_refuses h), pure_bind]

theorem closed_dottedList_of_refuses (h : Refuses expr c) :
    (closed (dottedList expr)).run c = (dottedEnd expr []).run c := by
  rw [closed_dottedList_eq, endBy, run_bind_of_ok (run_many_of_refuses (h.bind _))]

theorem closed_list_of_abort {e : Error} (hRun : expr.run c = .abort e next) :
    (closed (list expr)).run c = .abort e next := by
  rw [closed_list_eq, sepBy, bind_assoc, run_bind_of_abort (run_optional_of_abort hRun)]

theorem closed_list_of_moved {m : Mismatch} (hRun : expr.run c = .mismatch m next)
    (hMoved : next.offset ≠ c.offset) : (closed (list expr)).run c = .mismatch m next := by
  rw [closed_list_eq, sepBy, bind_assoc, run_bind_of_mismatch (run_optional_of_moved hRun hMoved)]

theorem closed_dottedList_of_moved {m : Mismatch} (hRun : expr.run c = .mismatch m next)
    (hMoved : next.offset ≠ c.offset) : (closed (dottedList expr)).run c = .mismatch m next := by
  rw [closed_dottedList_eq, endBy,
    run_bind_of_mismatch (run_many_of_moved (run_bind_of_mismatch hRun) hMoved)]

/-- In a dotted list, an element and what follows it. -/
theorem endBy_bind_of_ok {β : Type} (hReads : expr.Reads P) (hRun : expr.run c = .ok v next)
    (hLt : c.offset < next.offset) (f : List Datum → Rule β) :
    (endBy expr blanks >>= f).run c =
      (do discard blanks; let others ← endBy expr blanks; f (v :: others) : Rule β).run next := by
  have hItem : Reads (do let a ← expr; discard blanks; return a) fun _ _ => True :=
    reads_bind hReads fun _ _ _ => reads_bind (reads_discard reads_blanks) fun _ _ _ =>
      reads_pure trivial
  rcases run_blanks_cases next with ⟨m, hBlanks⟩ | ⟨last, hBlanks, hFurther, -⟩
  · -- the round has read the element, so that the repetition does not match
    have hDiscard := run_discard_of_mismatch hBlanks
    have hRound : (do let a ← expr; discard blanks; return a : Rule Datum).run c =
        .mismatch m next := by
      rw [run_bind_of_ok hRun, run_bind_of_mismatch hDiscard]
    rw [endBy, run_bind_of_mismatch (run_many_of_moved hRound (by omega)),
      run_bind_of_mismatch hDiscard]
  · have hDiscard := run_discard_of_ok hBlanks
    have hRound : (do let a ← expr; discard blanks; return a : Rule Datum).run c = .ok v last := by
      rw [run_bind_of_ok hRun, run_bind_of_ok hDiscard, run_pure]
    rw [run_bind_of_ok hDiscard, endBy, run_many_bind_of_ok hItem hRound (by omega)]

theorem closed_dottedList_of_ok (hReads : expr.Reads P) (hRun : expr.run c = .ok v next)
    (hLt : c.offset < next.offset) :
    (closed (dottedList expr)).run c = (dottedAfter expr [v]).run next := by
  rw [closed_dottedList_eq, endBy_bind_of_ok hReads hRun hLt]
  rfl

/-! ### Further elements

The blanks after an item are read, up to `middle`, and what counts is the element there.
-/

section Further

variable (hBlanks : blanks.run c = .ok () middle)

include hBlanks in
theorem run_round {o : Outcome Datum} (hRun : expr.run middle = o) :
    (do discard blanks; expr : Rule Datum).run c = o := by
  rw [run_bind_of_ok (run_discard_of_ok hBlanks), hRun]

include hBlanks in
theorem listAfter_of_ok (hReads : expr.Reads P) (hRun : expr.run middle = .ok v next)
    (hLt : c.offset < next.offset) :
    (listAfter expr items).run c = (listAfter expr (items ++ [v])).run next := by
  have hRound : Reads (do discard blanks; expr) fun _ _ => True :=
    reads_bind (reads_discard reads_blanks) fun _ _ _ => hReads.mono fun _ _ _ => trivial
  rw [listAfter, run_many_bind_of_ok hRound (run_round hBlanks hRun) hLt, listAfter]
  simp only [List.append_assoc, List.singleton_append]

include hBlanks in
theorem dottedAfter_of_ok (hReads : expr.Reads P) (hRun : expr.run middle = .ok v next)
    (hLt : middle.offset < next.offset) :
    (dottedAfter expr items).run c = (dottedAfter expr (items ++ [v])).run next := by
  rw [dottedAfter, run_bind_of_ok (run_discard_of_ok hBlanks), endBy_bind_of_ok hReads hRun hLt,
    dottedAfter]
  simp only [List.append_assoc, List.singleton_append]

include hBlanks in
theorem listAfter_of_abort {e : Error} (hRun : expr.run middle = .abort e next) :
    (listAfter expr items).run c = .abort e next := by
  rw [listAfter, run_bind_of_abort (run_many_of_abort (run_round hBlanks hRun))]

include hBlanks in
/-- A list needs an element after blanks, whether or not there is the start of one. -/
theorem listAfter_of_mismatch {m : Mismatch} (hRun : expr.run middle = .mismatch m next)
    (hLt : c.offset < next.offset) : (listAfter expr items).run c = .mismatch m next := by
  rw [listAfter, run_bind_of_mismatch (run_many_of_moved (run_round hBlanks hRun) (by omega))]

include hBlanks in
/-- A dotted list goes on to its dot where no element starts. -/
theorem dottedAfter_of_refuses (h : Refuses expr middle) :
    (dottedAfter expr items).run c = (dottedEnd expr items).run middle := by
  rw [dottedAfter, run_bind_of_ok (run_discard_of_ok hBlanks), endBy,
    run_bind_of_ok (run_many_of_refuses (h.bind _)), List.append_nil]

include hBlanks in
theorem dottedAfter_of_moved {m : Mismatch} (hRun : expr.run middle = .mismatch m next)
    (hMoved : next.offset ≠ middle.offset) : (dottedAfter expr items).run c = .mismatch m next := by
  rw [dottedAfter, run_bind_of_ok (run_discard_of_ok hBlanks), endBy,
    run_bind_of_mismatch (run_many_of_moved (run_bind_of_mismatch hRun) hMoved)]

end Further

/-- Without blanks the item was the last one of a list, or it is not one of a dotted list. -/
theorem tries_of_refuses (expr : Rule Datum) (items : List Datum) {m : Mismatch}
    (hBlanks : blanks.run c = .mismatch m c) :
    (listAfter expr items).run c = (listEnd items).run c ∧
      (dottedAfter expr items).run c = .mismatch m c := by
  have hRound : Refuses (do discard blanks; expr : Rule Datum) c :=
    Refuses.bind (Refuses.discard ⟨m, hBlanks⟩) _
  refine ⟨?_, ?_⟩
  · rw [listAfter, run_bind_of_ok (run_many_of_refuses hRound), List.append_nil]
  · rw [dottedAfter, run_bind_of_mismatch (run_discard_of_mismatch hBlanks)]

end Tries

/-! ## Both at once -/

section Both

variable {expr : Rule Datum} {P : List Char → Datum → Prop} {c : Cursor} {items : List Datum}
  (hReads : expr.Reads P) (hMoves : ∀ w v, P w v → w ≠ [])

theorem reads_listEnd (items : List Datum) : (listEnd items).Reads fun _ _ => True :=
  reads_bind (reads_discard (reads_char ')')) fun _ _ _ => reads_pure trivial

include hReads in
theorem reads_dottedEnd (items : List Datum) : (dottedEnd expr items).Reads fun _ _ => True :=
  reads_bind (reads_discard (reads_char '.')) fun _ _ _ => reads_bind reads_blanks fun _ _ _ =>
    reads_bind hReads fun _ _ _ => reads_bind (reads_discard (reads_char ')')) fun _ _ _ =>
      reads_pure trivial

include hReads in
theorem reads_afterItem (ahead : List Char) (items : List Datum) :
    (afterItem expr ahead items).Reads fun _ _ => True := by
  induction ahead generalizing items with
  | nil => exact reads_listEnd items
  | cons ch ahead ih =>
    refine reads_choice ?_
    simp only [List.forall_mem_cons, List.not_mem_nil, false_imp_iff, implies_true, and_true]
    refine ⟨reads_listEnd items, reads_bind reads_blanks fun _ _ _ => reads_choice ?_⟩
    simp only [List.forall_mem_cons, List.not_mem_nil, false_imp_iff, implies_true, and_true]
    exact ⟨reads_bind hReads fun _ _ _ => ih _, reads_dottedEnd hReads items⟩

include hReads in
theorem reads_onePassItems : (onePassItems expr).Reads fun _ _ => True := by
  intro c
  refine reads_bind (reads_optional hReads) (fun _ first _ => ?_) c
  cases first with
  | none => exact reads_choice (by simpa using ⟨reads_listEnd [], reads_dottedEnd hReads []⟩)
  | some item => exact reads_afterItem hReads _ _

theorem run_listEnd_of_ne (h : c.rest.head? ≠ some ')') (items : List Datum) :
    (listEnd items).run c = .mismatch (.of c.offset [Text.quotedChar ')'] c.found) c :=
  run_bind_of_mismatch (run_discard_of_mismatch (run_char_of_ne h))

/-- The end of a list does not match unless it leaves the cursor alone. -/
theorem listEnd_stays {m : Mismatch} {next : Cursor} (h : (listEnd items).run c = .mismatch m next) :
    next = c := by
  by_cases hHead : c.rest.head? = some ')'
  · obtain ⟨offset, text⟩ := c
    obtain ⟨rest, rfl⟩ := List.head?_eq_some_iff.mp hHead
    rw [listEnd, run_bind_of_ok (run_discard_of_ok (run_char _ _ _)), run_pure] at h
    cases h
  · rw [run_listEnd_of_ne hHead] at h
    cases h
    rfl

/-- A mismatch before all that the second rule has seen is forgotten. -/
theorem mismatch_orElse {m : Mismatch} {middle : Cursor} {o : Outcome Datum}
    {Q : List Char → Datum → Prop} (ho : o.Meets middle Q) (h : m.position < middle.offset) :
    (Outcome.mismatch m c).orElse o = o := by
  cases o with
  | ok a next => rfl
  | abort e next => rfl
  | mismatch m' next =>
    have hLow := ho.2.low
    show Outcome.mismatch (m'.merge m) next = _
    rw [Mismatch.merge_of_lt (by omega)]

include hReads hMoves in
/-- What follows an item is what the two tries make of it. The induction is on the text that bounds the
number of items: where another item follows, both tries have come past it. -/
theorem run_afterItem {ahead : List Char} (hAhead : c.rest.length < ahead.length) :
    (afterItem expr ahead items).run c =
      ((listAfter expr items).run c).orElse ((dottedAfter expr items).run c) := by
  induction ahead generalizing c items with
  | nil => simp at hAhead
  | cons ch ahead ih =>
    have hMore : Reads (do let item ← expr; afterItem expr ahead (items ++ [item])) fun _ _ => True :=
      reads_bind hReads fun _ _ _ => reads_afterItem hReads _ _
    have hNext : Reads (choice [do let item ← expr; afterItem expr ahead (items ++ [item]),
        dottedEnd expr items]) fun _ _ => True :=
      reads_choice (by simpa using ⟨hMore, reads_dottedEnd hReads items⟩)
    rw [afterItem, run_choice_pair (P := fun _ _ => True) (fun m next => listEnd_stays)
      (reads_bind reads_blanks fun _ _ _ => hNext)]
    rcases run_blanks_cases c with ⟨m, hBlanks⟩ | ⟨middle, hBlanks, hFurther, hHead⟩
    · obtain ⟨hList, hDotted⟩ := tries_of_refuses expr items hBlanks
      rw [hList, hDotted, run_bind_of_mismatch hBlanks]
    rw [run_listEnd_of_ne hHead, run_bind_of_ok hBlanks, mismatch_orElse (hNext middle) hFurther]
    cases hRun : expr.run middle with
    | ok v next =>
      obtain ⟨w, hReach, hP⟩ := hReads.of_ok hRun
      have hLength := List.length_pos_iff.mpr (hMoves w v hP)
      have hOffset := hReach.offset
      have hFinish := hReach.finish
      obtain ⟨u, hReach', -⟩ := reads_blanks.of_ok hBlanks
      have hFinish' := hReach'.finish
      simp only [List.length_cons] at hAhead
      rw [listAfter_of_ok hBlanks hReads hRun (by omega),
        dottedAfter_of_ok hBlanks hReads hRun (by omega), ← ih (by omega)]
      refine run_choice_of_moved ?_ (run_bind_of_ok hRun)
      intro m last hMismatch
      obtain ⟨⟨t, hReach''⟩, -⟩ := (reads_afterItem hReads _ _).of_mismatch hMismatch
      have := hReach''.offset
      omega
    | abort e next =>
      rw [listAfter_of_abort hBlanks hRun, Outcome.abort_orElse]
      exact run_choice_of_moved (by simp) (run_bind_of_abort hRun)
    | mismatch m next =>
      obtain ⟨⟨w, hReach⟩, -⟩ := hReads.of_mismatch hRun
      have hOffset := hReach.offset
      rw [listAfter_of_mismatch hBlanks hRun (by omega)]
      by_cases hMoved : next.offset = middle.offset
      · obtain ⟨-, rfl⟩ := hReach.eq_of_offset hMoved
        rw [dottedAfter_of_refuses hBlanks ⟨m, hRun⟩]
        exact run_choice_of_mismatch (run_bind_of_mismatch hRun) (reads_dottedEnd hReads items)
      · rw [dottedAfter_of_moved hBlanks hRun hMoved]
        show _ = Outcome.mismatch (m.merge m) next
        rw [Mismatch.merge_self]
        refine run_choice_of_moved ?_ (run_bind_of_mismatch hRun)
        rintro _ _ ⟨⟩
        exact hMoved

include hReads hMoves in
/-- Reading in one pass has the outcome of reading as a list first and as a dotted list then. -/
theorem parenthesized_eq_onePass : parenthesized expr = onePass expr := by
  have hItems : choice [attempt (closed (list expr)), closed (dottedList expr)] = onePassItems expr := by
    have hDotted : (closed (dottedList expr)).Reads fun _ _ => True := by
      rw [closed_dottedList_eq]
      exact reads_bind (reads_endBy hReads reads_blanks) fun _ items _ => reads_dottedEnd hReads items
    ext c
    rw [run_choice_attempt hDotted, onePassItems]
    show _ = ((optional expr).run c).andThen _
    cases hRun : expr.run c with
    | ok v next =>
      obtain ⟨w, hReach, hP⟩ := hReads.of_ok hRun
      have hLength := List.length_pos_iff.mpr (hMoves w v hP)
      have hOffset := hReach.offset
      have hFinish := hReach.finish
      rw [closed_list_of_ok hRun, closed_dottedList_of_ok hReads hRun (by omega),
        run_optional_of_ok hRun]
      exact (run_afterItem hReads hMoves (by omega)).symm
    | abort e next =>
      rw [closed_list_of_abort hRun, run_optional_of_abort hRun]
      rfl
    | mismatch m next =>
      obtain ⟨⟨w, hReach⟩, -⟩ := hReads.of_mismatch hRun
      by_cases hMoved : next.offset = c.offset
      · obtain ⟨-, rfl⟩ := hReach.eq_of_offset hMoved
        have hRefused : Refuses expr next := ⟨m, hRun⟩
        rw [closed_list_of_refuses hRefused, closed_dottedList_of_refuses hRefused,
          run_optional_of_refuses hRefused]
        exact (run_choice_pair (fun _ _ => listEnd_stays) (reads_dottedEnd hReads [])).symm
      · rw [closed_list_of_moved hRun hMoved, closed_dottedList_of_moved hRun hMoved,
          run_optional_of_moved hRun hMoved]
        show Outcome.mismatch (m.merge m) next = Outcome.mismatch m next
        rw [Mismatch.merge_self]
  rw [parenthesized, onePass, hItems]

end Both

/-! ## At every depth -/

theorem ne_nil_of_denotesWithin {levels : Nat} (w : List Char) (v : Datum)
    (h : DenotesWithin levels w v) : w ≠ [] := by
  rintro rfl
  cases h.1.opens

theorem expression_eq_onePass (levels : Nat) : expression levels = onePassExpression levels := by
  induction levels with
  | zero => rfl
  | succ levels ih =>
    have hLists := parenthesized_eq_onePass (reads_expression levels) ne_nil_of_denotesWithin
    rw [onePassExpression, ← ih, ← hLists]
    rfl

/-- A list or dotted list is read from just the same texts, with the same value and up to the same cursor,
if no element is read twice, at whatever depth it stands. Nor does it make a difference to texts that do not
match or nest too deeply. -/
theorem parenthesized_reads_in_one_pass (levels : Nat) (c : Cursor) :
    (∀ v next, (parenthesized (expression levels)).run c = .ok v next ↔
      (onePass (onePassExpression levels)).run c = .ok v next) ∧
    (parenthesized (expression levels)).run c = (onePass (onePassExpression levels)).run c := by
  have hLists := parenthesized_eq_onePass (reads_expression levels) ne_nil_of_denotesWithin
  rw [hLists, expression_eq_onePass]
  exact ⟨fun v next => Iff.rfl, rfl⟩

end MiniScheme.Grammar
