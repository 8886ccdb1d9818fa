import MiniScheme.Proofs.Grammar.TokenRun

/-!
# What is read stands for its value

An expression that is read stands for its value, and its value is no deeper than the levels that reading
was given (`reads_expression`). The rules for data that hold data take the contract of the rule for their
parts; the induction over the levels ties them together.

Three alternatives of an expression have no counterpart in the grammar: fractions, ratios and complex
numbers. They never succeed there, because the alternative for integers comes before them and succeeds
wherever one of them could start.
-/

namespace MiniScheme.Grammar

open Rule

/-- The text stands for the datum, and reading it takes no more than the given levels. -/
def DenotesWithin (levels : Nat) (w : List Char) (v : Datum) : Prop :=
  Denotes w v ∧ v.depth ≤ levels

theorem one_le_depth (v : Datum) : 1 ≤ v.depth := by
  cases v <;> simp [Datum.depth]

theorem Token.depth {w : List Char} {v : Datum} (h : Token w v) : v.depth = 1 := by
  cases h <;> rfl

theorem Token.denotesWithin {w : List Char} {v : Datum} (h : Token w v) (levels : Nat) :
    DenotesWithin (levels + 1) w v :=
  ⟨.token h, by rw [h.depth]; omega⟩

/-! ## Items -/

section Items

variable {D E : List Char → Datum → Prop} {w : List Char} {items : List Datum}

theorem Separated.imp (h : Separated D w items) (hDE : ∀ w v, v ∈ items → D w v → E w v) :
    Separated E w items := by
  induction h with
  | nil => exact .nil
  | single hv => exact .single (hDE _ _ (by simp) hv)
  | cons hv hs _ ih =>
    exact .cons (hDE _ _ (by simp) hv) hs (ih fun w v hMem => hDE w v (List.mem_cons_of_mem _ hMem))

theorem Separated.forall_mem {Q : Datum → Prop} (h : Separated D w items)
    (hDQ : ∀ w v, D w v → Q v) : ∀ v ∈ items, Q v := by
  induction h with
  | nil => simp
  | single hv => simpa using hDQ _ _ hv
  | cons hv _ _ ih => exact List.forall_mem_cons.mpr ⟨hDQ _ _ hv, ih⟩

theorem Ended.imp (h : Ended D w items) (hDE : ∀ w v, v ∈ items → D w v → E w v) :
    Ended E w items := by
  induction h with
  | nil => exact .nil
  | cons hv hs _ ih =>
    exact .cons (hDE _ _ (by simp) hv) hs (ih fun w v hMem => hDE w v (List.mem_cons_of_mem _ hMem))

theorem Ended.forall_mem {Q : Datum → Prop} (h : Ended D w items)
    (hDQ : ∀ w v, D w v → Q v) : ∀ v ∈ items, Q v := by
  induction h with
  | nil => simp
  | cons hv _ _ ih => exact List.forall_mem_cons.mpr ⟨hDQ _ _ hv, ih⟩

/-- An item, and then blanks and an item again and again. -/
theorem separated_of_concat {u : List Char} {v : Datum} (hv : D u v)
    (h : Concat (fun w a => ∃ s u, w = s ++ u ∧ IsBlanks s ∧ D u a) w items) :
    Separated D (u ++ w) (v :: items) := by
  induction h generalizing u v with
  | nil =>
    rw [List.append_nil]
    exact .single hv
  | cons hNext _ ih =>
    obtain ⟨s, u', rfl, hs, hv'⟩ := hNext
    rw [List.append_assoc]
    exact .cons hv hs (ih hv')

theorem ended_of_concat
    (h : Concat (fun w a => ∃ u s, w = u ++ s ∧ D u a ∧ IsBlanks s) w items) :
    Ended D w items := by
  induction h with
  | nil => exact .nil
  | cons hItem _ ih =>
    obtain ⟨u, s, rfl, hv, hs⟩ := hItem
    rw [List.append_assoc]
    exact .cons hv hs ih

end Items

/-! ## Data that hold data

In what follows `expr` is the rule for the parts. It reads up to `levels` levels, and it does so at all:
without any level left it would abort where it refuses.
-/

section Parts

variable {expr : Rule Datum} {levels : Nat} (hExpr : expr.Reads (DenotesWithin levels))
  (hLevels : ∀ c, Refuses expr c → 1 ≤ levels)

include hExpr in
/-- A mark and an expression. -/
theorem reads_quotation {mark : Char} {name : String} (hEntry : entry quotationNames mark = .ok name)
    (hMark : ∀ {w v}, Denotes w v → Denotes (mark :: w) (.list [.symbol name, v])) :
    (quotation mark expr).Reads (DenotesWithin (levels + 1)) := by
  refine reads_bind (reads_discard (reads_char mark)) ?_
  rintro u _ rfl
  refine reads_bind (reads_ofExcept (P := fun w a => w = [] ∧ a = name) hEntry ⟨rfl, rfl⟩) ?_
  rintro u _ ⟨rfl, rfl⟩
  refine reads_bind hExpr fun w v hv => reads_pure ?_
  rw [List.append_nil]
  have hDepth := hv.2
  have hOne := one_le_depth v
  refine ⟨hMark hv.1, ?_⟩
  simp only [Datum.depth, Datum.itemsDepth]
  omega

include hExpr hLevels in
/-- Items with blanks between them. -/
theorem reads_items : (sepBy expr blanks).Reads fun w items =>
    Separated Denotes w items ∧ Datum.itemsDepth items ≤ levels := by
  refine (reads_sepBy hExpr reads_blanks).mono ?_
  rintro w items (⟨rfl, rfl, c, hRefused⟩ | ⟨u, v, t, items, rfl, rfl, hv, hConcat⟩)
  · exact ⟨.nil, hLevels c hRefused⟩
  · have hItems := separated_of_concat hv hConcat
    have hDepth := hItems.forall_mem fun w v h => h.2
    have hOne := one_le_depth v
    have hHead := hDepth v List.mem_cons_self
    exact ⟨hItems.imp fun w v _ h => h.1, Datum.itemsDepth_le_iff.mpr ⟨by omega, hDepth⟩⟩

/-- The bounds that a vector is built with span its items. -/
theorem vectorOfBounds_items (items : List Datum) :
    Datum.vectorOfBounds 0 (items.length - 1) items = .ok (.vector items) := by
  rw [Datum.vectorOfBounds, if_pos ⟨rfl, by omega⟩]

include hExpr hLevels in
theorem reads_vector : (vector expr).Reads (DenotesWithin (levels + 1)) := by
  refine reads_bind (reads_discard ((reads_word "#(").mono fun _ _ h => h.1)) ?_
  rintro u _ rfl
  refine reads_bind (reads_items hExpr hLevels) fun w items hItems => ?_
  refine reads_bind (reads_discard (reads_char ')')) ?_
  rintro v _ rfl
  refine reads_ofExcept (vectorOfBounds_items items) ?_
  have hDenotes := Denotes.vector hItems.1
  refine ⟨by simpa using hDenotes, ?_⟩
  simp only [Datum.depth]
  exact Nat.succ_le_succ hItems.2

include hExpr hLevels in
theorem reads_list : (list expr).Reads fun w v => ∃ items,
    v = .list items ∧ Separated Denotes w items ∧ Datum.itemsDepth items ≤ levels :=
  reads_map (reads_items hExpr hLevels) fun _ items h => ⟨items, rfl, h⟩

include hExpr in
theorem reads_dottedList : (dottedList expr).Reads fun w v => ∃ items tail u s t,
    v = .dotted items tail ∧ w = u ++ ('.' :: s ++ t) ∧ Ended Denotes u items ∧ IsBlanks s ∧
      Denotes t tail ∧ (∀ item ∈ items, item.depth ≤ levels) ∧ tail.depth ≤ levels := by
  refine reads_bind (reads_endBy hExpr reads_blanks) fun u items hConcat => ?_
  refine reads_bind (reads_discard (reads_char '.')) ?_
  rintro v _ rfl
  refine reads_bind reads_blanks fun s _ hs => ?_
  refine reads_bind hExpr fun t tail hTail => reads_pure ?_
  have hItems := ended_of_concat hConcat
  exact ⟨items, tail, u, s, t, rfl, by simp, hItems.imp fun _ _ _ h => h.1, hs, hTail.1,
    hItems.forall_mem fun _ _ h => h.2, hTail.2⟩

theorem reads_closed {r : Rule Datum} {P Q : List Char → Datum → Prop} (hr : r.Reads P)
    (hPQ : ∀ w v, P w v → Q (w ++ [')']) v) : (closed r).Reads Q := by
  refine reads_bind hr fun w v hP => reads_bind (reads_discard (reads_char ')')) ?_
  rintro u _ rfl
  refine reads_pure ?_
  rw [List.append_nil]
  exact hPQ w v hP

include hExpr hLevels in
theorem reads_parenthesized : (parenthesized expr).Reads (DenotesWithin (levels + 1)) := by
  refine reads_bind (reads_discard (reads_char '(')) ?_
  rintro u _ rfl
  refine reads_choice ?_
  simp only [List.forall_mem_cons, List.not_mem_nil, false_imp_iff, implies_true, and_true]
  refine ⟨reads_attempt (reads_closed (reads_list hExpr hLevels) ?_),
    reads_closed (reads_dottedList hExpr) ?_⟩
  · rintro w v ⟨items, rfl, hItems, hDepth⟩
    refine ⟨.list hItems, ?_⟩
    simp only [Datum.depth]
    exact Nat.succ_le_succ hDepth
  · rintro w v ⟨items, tail, u, s, t, rfl, rfl, hItems, hs, hTail, hDepth, hTailDepth⟩
    have hDenotes := Denotes.dotted hItems hs hTail
    have hOne := one_le_depth tail
    refine ⟨by simpa using hDenotes, ?_⟩
    simp only [Datum.depth]
    exact Nat.succ_le_succ
      (Nat.max_le.mpr ⟨Datum.itemsDepth_le_iff.mpr ⟨by omega, hDepth⟩, hTailDepth⟩)

/-! ## All together -/

/-- A rule that starts with a numeral does not get its turn where integers are read first. -/
theorem meets_of_startsNumeral {r : Rule Datum} {P : List Char → Datum → Prop} {c : Cursor}
    (hr : r.Reads fun w _ => StartsNumeral w) (hNumber : Refuses (attempt number) c) :
    ((attempt r).run c).Meets c P := by
  refine (reads_attempt hr c).mono ?_
  rintro w v ⟨t, hText⟩ hStart
  obtain ⟨n, next, hRun⟩ := run_number_of_startsNumeral (hStart.append t) c.offset
  rw [hText] at hRun
  obtain ⟨m, hRefused⟩ := hNumber
  rw [run_attempt_of_ok hRun] at hRefused
  cases hRefused

include hExpr hLevels in
theorem reads_expressionOf : (expressionOf expr).Reads (DenotesWithin (levels + 1)) := by
  intro c
  have hToken : ∀ {r : Rule Datum}, r.Reads Token → r.Reads (DenotesWithin (levels + 1)) :=
    fun hr => hr.mono fun w v h => h.denotesWithin levels
  refine meets_choice ⟨hToken reads_symbol c, fun _ => ⟨hToken reads_string c, fun _ =>
    ⟨hToken (reads_attempt reads_number) c, fun hNumber => ⟨hToken (reads_attempt reads_bool) c,
    fun _ => ⟨hToken (reads_attempt reads_character) c, fun _ => ?_⟩⟩⟩⟩⟩
  refine ⟨meets_of_startsNumeral reads_float hNumber, fun _ =>
    ⟨meets_of_startsNumeral reads_ratio hNumber, fun _ =>
    ⟨meets_of_startsNumeral reads_complex hNumber, fun _ => ?_⟩⟩⟩
  exact ⟨reads_attempt (reads_quotation hExpr rfl .quote) c, fun _ =>
    ⟨reads_quotation hExpr rfl .quasiquote c, fun _ =>
    ⟨reads_quotation hExpr rfl .unquote c, fun _ =>
    ⟨reads_attempt (reads_vector hExpr hLevels) c, fun _ =>
    ⟨reads_parenthesized hExpr hLevels c, fun _ => trivial⟩⟩⟩⟩⟩

end Parts

/-- What is read as an expression stands for its value, which takes no more levels than there were. -/
theorem reads_expression (levels : Nat) : (expression levels).Reads (DenotesWithin levels) := by
  induction levels with
  | zero => exact reads_abort
  | succ levels ih =>
    refine reads_expressionOf ih fun c hRefused => ?_
    cases levels with
    | zero =>
      obtain ⟨m, hRun⟩ := hRefused
      cases hRun
    | succ levels => omega

end MiniScheme.Grammar
