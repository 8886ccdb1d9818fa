import MiniScheme.Proofs.Reading.Limit

/-!
# How rules are put together

A repetition that has no bound on its rounds is a loop (`Loops`). It ends if every round that matches moves
the cursor on, and then it does what `many` does (`ends_of_reads`).

`Composed part r` says that `r` is put together from rules for characters and words and from the rule `part`,
and that whatever is repeated on the way ends. What all ways of putting rules together keep is thus shown by
one induction, with a case for each of them: if `part` is cut off at one place only, so is `r`
(`Composed.cutOffAt`).
-/

namespace MiniScheme

namespace Rule

variable {α β : Type} {r : Rule α} {c next : Cursor}

/-! ## Loops -/

/-- What becomes of a loop that goes on as long as its rounds match. -/
inductive Loops (r : Rule α) : Cursor → Outcome (List α) → Prop
  | stop {c next : Cursor} {m : Mismatch} : r.run c = .mismatch m next → next.offset = c.offset →
      Loops r c (.ok [] next)
  | fail {c next : Cursor} {m : Mismatch} : r.run c = .mismatch m next → next.offset ≠ c.offset →
      Loops r c (.mismatch m next)
  | abort {c next : Cursor} {e : Error} : r.run c = .abort e next → Loops r c (.abort e next)
  | round {c next : Cursor} {a : α} {o : Outcome (List α)} : r.run c = .ok a next → Loops r next o →
      Loops r c (o.andThen fun as last => .ok (a :: as) last)

/-- Every round that matches moves the cursor on, and the loop of such rounds ends as `many` does and in no
other way. -/
structure Ends (r : Rule α) : Prop where
  advances : ∀ c a next, r.run c = .ok a next → c.offset < next.offset
  loops_iff : ∀ c o, Loops r c o ↔ (many r).run c = o

section Ends

variable {P : List Char → α → Prop}

theorem lt_offset_of_ok (hr : r.Reads P) (hNe : ∀ w a, P w a → w ≠ []) {a : α}
    (hRun : r.run c = .ok a next) : c.offset < next.offset := by
  obtain ⟨w, hReach, hP⟩ := hr.of_ok hRun
  have hPos := List.length_pos_iff.mpr (hNe w a hP)
  rw [hReach.offset]
  omega

/-- What is left of the text shrinks with every round. -/
theorem loops_many (hr : r.Reads P) (hNe : ∀ w a, P w a → w ≠ []) (c : Cursor) :
    Loops r c ((many r).run c) := by
  induction hLength : c.rest.length using Nat.strongRecOn generalizing c with
  | ind length ih =>
    cases hRun : r.run c with
    | abort e next =>
      rw [run_many_of_abort hRun]
      exact .abort hRun
    | mismatch m next =>
      by_cases hStay : next.offset = c.offset
      · obtain ⟨⟨w, hReach⟩, -⟩ := hr.of_mismatch hRun
        obtain ⟨-, rfl⟩ := hReach.eq_of_offset hStay
        rw [run_many_of_refuses ⟨m, hRun⟩]
        exact .stop hRun hStay
      · rw [run_many_of_moved hRun hStay]
        exact .fail hRun hStay
    | ok a next =>
      have hLt := lt_offset_of_ok hr hNe hRun
      obtain ⟨w, hReach, -⟩ := hr.of_ok hRun
      have hFinish := hReach.finish
      rw [run_many_of_ok hr hRun hLt]
      exact .round hRun (ih next.rest.length (by omega) next rfl)

/-- A loop has one outcome at most, that of the repetition. -/
theorem Loops.run_many (hr : r.Reads P) (hNe : ∀ w a, P w a → w ≠ []) {o : Outcome (List α)}
    (h : Loops r c o) : (many r).run c = o := by
  induction h with
  | abort hRun => exact run_many_of_abort hRun
  | fail hRun hMoved => exact run_many_of_moved hRun hMoved
  | @stop c next m hRun hStay =>
    obtain ⟨⟨w, hReach⟩, -⟩ := hr.of_mismatch hRun
    obtain ⟨-, rfl⟩ := hReach.eq_of_offset hStay
    exact run_many_of_refuses ⟨m, hRun⟩
  | round hRun _ ih => rw [run_many_of_ok hr hRun (lt_offset_of_ok hr hNe hRun), ih]

theorem ends_of_reads (hr : r.Reads P) (hNe : ∀ w a, P w a → w ≠ []) : Ends r := by
  refine ⟨fun c a next hRun => lt_offset_of_ok hr hNe hRun, fun c o => ⟨?_, ?_⟩⟩
  · exact fun hLoops => hLoops.run_many hr hNe
  · rintro rfl
    exact loops_many hr hNe c

theorem ends_satisfy (p : Char → Bool) (expected : List String) : Ends (satisfy p expected) := by
  refine ends_of_reads (reads_satisfy p expected) ?_
  rintro w ch ⟨rfl, -⟩
  exact List.cons_ne_nil ch []

end Ends

/-! ## Rules made of rules -/

/-- The rule is put together from rules for characters and words and from `part`, and whatever it repeats
ends. -/
inductive Composed {π : Type} (part : Rule π) : {α : Type} → Rule α → Prop
  | part : Composed part part
  | pure {α : Type} (a : α) : Composed part (pure a)
  | ofExcept {α : Type} {x : Except Error α} : x ≠ .error .readingTooDeep → Composed part (ofExcept x)
  | offset : Composed part offset
  | mismatch {α : Type} (m : Mismatch) : Composed part (mismatch m : Rule α)
  | satisfy (p : Char → Bool) (expected : List String) : Composed part (satisfy p expected)
  | notFollowedBy (p : Char → Bool) : Composed part (notFollowedBy p)
  | word (text : String) : Composed part (word text)
  | bind {α β : Type} {r : Rule α} {f : α → Rule β} : Composed part r → (∀ a, Composed part (f a)) →
      Composed part (r >>= f)
  | attempt {α : Type} {r : Rule α} : Composed part r → Composed part (attempt r)
  | choice {α : Type} {rs : List (Rule α)} : (∀ r ∈ rs, Composed part r) → Composed part (choice rs)
  | optional {α : Type} {r : Rule α} : Composed part r → Composed part (optional r)
  | many {α : Type} {r : Rule α} : Composed part r → Ends r → Composed part (many r)

namespace Composed

variable {π : Type} {part : Rule π} {sep : Rule β}

theorem map (h : Composed part r) (f : α → β) : Composed part (f <$> r) :=
  h.bind fun a => .pure (f a)

theorem discard (h : Composed part r) : Composed part (discard r) :=
  h.map fun _ => ()

theorem many1 (h : Composed part r) (hEnds : Ends r) : Composed part (many1 r) :=
  h.bind fun _ => (h.many hEnds).bind fun _ => .pure _

theorem sepBy (h : Composed part r) (hSep : Composed part sep) (hEnds : Ends (do Functor.discard sep; r)) :
    Composed part (sepBy r sep) := by
  refine h.optional.bind fun first => ?_
  cases first with
  | none => exact .pure _
  | some a => exact ((hSep.discard.bind fun _ => h).many hEnds).bind fun _ => .pure _

theorem endBy (h : Composed part r) (hSep : Composed part sep)
    (hEnds : Ends (do let a ← r; Functor.discard sep; return a)) : Composed part (endBy r sep) :=
  (h.bind fun _ => hSep.discard.bind fun _ => .pure _).many hEnds

end Composed

end Rule

/-! ## Rules that are cut off -/

/-- The cursor has moved over a part of the text ahead of `c`, and if nesting was too deep, it was so at
`place`. -/
structure Outcome.CutOffAt {α : Type} (place c : Cursor) (o : Outcome α) : Prop where
  reaches : ∃ w, c.Reaches w o.next
  place_of_tooDeep : o.TooDeep → o.next = place

namespace Outcome.CutOffAt

variable {α β : Type} {place c middle next : Cursor}

theorem ok {w : List Char} (h : c.Reaches w next) (a : α) : (Outcome.ok a next).CutOffAt place c :=
  ⟨⟨w, h⟩, fun ⟨_, hAbort⟩ => by cases hAbort⟩

theorem mismatch {w : List Char} (h : c.Reaches w next) (m : Mismatch) :
    (Outcome.mismatch m next : Outcome α).CutOffAt place c :=
  ⟨⟨w, h⟩, fun ⟨_, hAbort⟩ => by cases hAbort⟩

/-- An abort is the same whatever was to be read. -/
theorem abort {e : Error} (h : (Outcome.abort e next : Outcome α).CutOffAt place c) :
    (Outcome.abort e next : Outcome β).CutOffAt place c := by
  refine ⟨h.reaches, ?_⟩
  rintro ⟨_, ⟨⟩⟩
  exact h.place_of_tooDeep ⟨next, rfl⟩

theorem of_reaches {u : List Char} (h : c.Reaches u middle) {o : Outcome α} (ho : o.CutOffAt place middle) :
    o.CutOffAt place c := by
  obtain ⟨⟨w, hReach⟩, hPlace⟩ := ho
  exact ⟨⟨u ++ w, h.trans hReach⟩, hPlace⟩

theorem andThen {o : Outcome α} {f : α → Cursor → Outcome β} (h : o.CutOffAt place c)
    (hf : ∀ a next, o = .ok a next → (f a next).CutOffAt place next) :
    (o.andThen f).CutOffAt place c := by
  obtain ⟨w, hReach⟩ := h.reaches
  cases o with
  | ok a next => exact of_reaches hReach (hf a next rfl)
  | mismatch m next => exact mismatch hReach m
  | abort e next => exact h.abort

end Outcome.CutOffAt

namespace Rule

variable {α β : Type} {r : Rule α} {place : Cursor}

/-- Nesting is too deep for the rule at one place only. -/
def CutOffAt (place : Cursor) (r : Rule α) : Prop :=
  ∀ c, (r.run c).CutOffAt place c

theorem CutOffAt.of_ok (h : r.CutOffAt place) {c next : Cursor} {a : α} (hRun : r.run c = .ok a next) :
    ∃ w, c.Reaches w next := by
  have hReach := (h c).reaches
  rwa [hRun] at hReach

theorem CutOffAt.of_mismatch (h : r.CutOffAt place) {c next : Cursor} {m : Mismatch}
    (hRun : r.run c = .mismatch m next) : ∃ w, c.Reaches w next := by
  have hReach := (h c).reaches
  rwa [hRun] at hReach

theorem CutOffAt.of_abort (h : r.CutOffAt place) {c next : Cursor} {e : Error}
    (hRun : r.run c = .abort e next) : (Outcome.abort e next : Outcome β).CutOffAt place c := by
  have hAbort := h c
  rw [hRun] at hAbort
  exact hAbort.abort

theorem CutOffAt.attempt (h : r.CutOffAt place) : (attempt r).CutOffAt place := by
  intro c
  cases hRun : r.run c with
  | mismatch m next =>
    rw [run_attempt_of_mismatch hRun]
    exact .mismatch (.refl c) m
  | ok a next =>
    rw [run_attempt_of_ok hRun, ← hRun]
    exact h c
  | abort e next =>
    rw [run_attempt_of_abort hRun]
    exact h.of_abort hRun

theorem cutOffAt_choiceFrom {rs : List (Rule α)} (h : ∀ r ∈ rs, r.CutOffAt place) (c : Cursor)
    (seen : Option Mismatch) : (choiceFrom c seen rs).CutOffAt place c := by
  induction rs generalizing seen with
  | nil => exact .mismatch (.refl c) _
  | cons r rs ih =>
    obtain ⟨hr, hrs⟩ := List.forall_mem_cons.mp h
    unfold choiceFrom
    split
    · rename_i m next hRun
      obtain ⟨w, hReach⟩ := hr.of_mismatch hRun
      split
      · exact ih hrs _
      · exact .mismatch hReach _
    · exact hr c

theorem CutOffAt.optional (h : r.CutOffAt place) : (optional r).CutOffAt place := by
  intro c
  unfold Rule.optional
  dsimp only
  split
  · obtain ⟨w, hReach⟩ := h.of_ok ‹_›
    exact .ok hReach _
  · obtain ⟨w, hReach⟩ := h.of_mismatch ‹_›
    split
    · exact .ok hReach _
    · exact .mismatch hReach _
  · exact h.of_abort ‹_›

/-- The induction follows the rounds. -/
theorem CutOffAt.repeated (h : r.CutOffAt place) (ahead : List Char) (c : Cursor) :
    (repeated r ahead c).CutOffAt place c := by
  fun_induction Rule.repeated r ahead c with
  | case1 c a next hRun =>
    obtain ⟨w, hReach⟩ := h.of_ok hRun
    exact .ok hReach _
  | case2 c a next hRun _ ahead hLt ih =>
    obtain ⟨w, hReach⟩ := h.of_ok hRun
    exact .of_reaches hReach (ih.andThen fun as last _ => .ok (.refl last) _)
  | case3 c a next hRun =>
    obtain ⟨w, hReach⟩ := h.of_ok hRun
    exact .ok hReach _
  | case4 _ c m next hRun =>
    obtain ⟨w, hReach⟩ := h.of_mismatch hRun
    exact .ok hReach _
  | case5 _ c m next hRun =>
    obtain ⟨w, hReach⟩ := h.of_mismatch hRun
    exact .mismatch hReach _
  | case6 _ c e next hRun => exact h.of_abort hRun

/-- Nothing that is read lies behind. -/
theorem tooDeepAfter_of_reads {P : List Char → α → Prop} (hr : r.Reads P) : r.TooDeepAfter 0 := by
  intro c
  obtain ⟨w, hReach⟩ := (hr c).reaches
  have hOffset := hReach.offset
  cases hRun : r.run c with
  | mismatch m next => trivial
  | ok a next =>
    rw [hRun] at hOffset
    exact Nat.le.intro hOffset.symm
  | abort e next =>
    rw [hRun] at hOffset
    exact fun _ => Nat.le.intro hOffset.symm

/-- A rule that would have to come further than the text goes is not cut off at all. -/
theorem cutOffAt_of_reads {P : List Char → α → Prop} (hr : r.Reads P) (h : ∀ k, r.TooDeepAfter k) :
    r.CutOffAt place := by
  refine fun c => ⟨(hr c).reaches, ?_⟩
  rintro ⟨next, hRun⟩
  obtain ⟨⟨w, hReach⟩, -⟩ := hr.of_abort hRun
  have hAfter := (h (c.rest.length + 1)).of_abort hRun
  have hFinish := hReach.finish
  omega

/-- A rule is cut off where its part is. -/
theorem Composed.cutOffAt {π : Type} {part : Rule π} (hPart : part.CutOffAt place) (h : Composed part r) :
    r.CutOffAt place := by
  induction h with
  | part => exact hPart
  | pure a => exact fun c => .ok (.refl c) a
  | offset => exact fun c => .ok (.refl c) _
  | mismatch m => exact fun c => .mismatch (.refl c) m
  | @ofExcept _ x hx =>
    intro c
    cases x with
    | ok a => exact .ok (.refl c) a
    | error e =>
      refine ⟨⟨[], .refl c⟩, ?_⟩
      rintro ⟨_, ⟨⟩⟩
      exact absurd rfl hx
  | satisfy p expected =>
    exact cutOffAt_of_reads (reads_satisfy p expected) fun k => tooDeepAfter_satisfy p expected
  | notFollowedBy p =>
    exact cutOffAt_of_reads (reads_notFollowedBy p) fun k => tooDeepAfter_notFollowedBy p
  | word text => exact cutOffAt_of_reads (reads_word text) fun k => tooDeepAfter_word text
  | bind _ _ ihr ihf => exact fun c => (ihr c).andThen fun a next _ => ihf a next
  | attempt _ ih => exact ih.attempt
  | choice _ ih => exact fun c => cutOffAt_choiceFrom ih c none
  | optional _ ih => exact ih.optional
  | many _ _ ih => exact fun c => ih.repeated c.rest c

end Rule

end MiniScheme
