import Mathlib.Data.List.Forall2
import MiniScheme.Proofs.Reading.Run

/-!
# Rules that run out of levels

A rule that runs out of levels aborts, and no way of putting rules together takes that back. So a rule
built from parts with fewer levels `Approximates` the same rule built from parts with more: wherever it
starts, it has the same outcome or it is too deep.

Where a rule gives up is bounded from below. `TooDeepAfter k r` says that `r` has moved by at least `k`
characters when it finds nesting too deep; with fewer characters ahead it does not.
-/

namespace MiniScheme

/-! ## Outcomes that are too deep -/

namespace Outcome

variable {α β : Type}

/-- Reading stopped because of nesting. -/
def TooDeep (o : Outcome α) : Prop :=
  ∃ next, o = .abort .readingTooDeep next

/-- The outcome is the full one, or it is too deep. -/
def Approximates (o full : Outcome α) : Prop :=
  o = full ∨ o.TooDeep

theorem Approximates.refl (o : Outcome α) : o.Approximates o :=
  .inl rfl

theorem Approximates.andThen {o full : Outcome α} {f g : α → Cursor → Outcome β}
    (h : o.Approximates full) (hf : ∀ a next, (f a next).Approximates (g a next)) :
    (o.andThen f).Approximates (full.andThen g) := by
  rcases h with rfl | ⟨next, rfl⟩
  · cases o with
    | ok a next => exact hf a next
    | mismatch m next => exact .refl _
    | abort e next => exact .refl _
  · exact .inr ⟨next, rfl⟩

end Outcome

namespace Rule

variable {α β : Type} {r s : Rule α} {c next last : Cursor} {e : Error}

/-! ## An abort is passed on -/

theorem run_attempt_of_abort (hRun : r.run c = .abort e next) : (attempt r).run c = .abort e next :=
  run_attempt_of_run (by simp) hRun

/-- The alternatives after one that aborts are not tried. -/
theorem run_choice_of_abort {rs rs' : List (Rule α)} (h : ∀ r' ∈ rs, Refuses r' c)
    (hRun : r.run c = .abort e next) : (choice (rs ++ r :: rs')).run c = .abort e next :=
  (run_choice_append (by simp) h).mpr (run_choice_of_run (by simp) hRun)

/-- The rule matches again and again, and every time it reads something. -/
inductive Rounds (r : Rule α) : Cursor → List α → Cursor → Prop
  | nil (c : Cursor) : Rounds r c [] c
  | cons {c middle last : Cursor} {a : α} {as : List α} : r.run c = .ok a middle →
      c.offset < middle.offset → Rounds r middle as last → Rounds r c (a :: as) last

/-- A repetition does not end with the rounds before the one that aborts. -/
theorem run_many_of_rounds {P : List Char → α → Prop} (hr : r.Reads P) {as : List α}
    (h : Rounds r c as last) (hRun : r.run last = .abort e next) :
    (many r).run c = .abort e next := by
  induction h with
  | nil c => exact run_many_of_abort hRun
  | cons hFirst hLt _ ih =>
    rw [run_many_of_ok hr hFirst hLt, ih hRun]
    rfl

/-! ## Approximation -/

/-- Wherever it starts, the rule has the outcome of the other or is too deep. -/
def Approximates (r s : Rule α) : Prop :=
  ∀ c, (r.run c).Approximates (s.run c)

theorem Approximates.refl (r : Rule α) : r.Approximates r :=
  fun c => .refl (r.run c)

theorem Approximates.bind {f g : α → Rule β} (h : r.Approximates s)
    (hf : ∀ a, (f a).Approximates (g a)) : (r >>= f).Approximates (s >>= g) :=
  fun c => (h c).andThen fun a next => hf a next

theorem Approximates.map (h : r.Approximates s) (f : α → β) : (f <$> r).Approximates (f <$> s) :=
  h.bind fun a => .refl (pure (f a))

theorem Approximates.attempt (h : r.Approximates s) : (attempt r).Approximates (attempt s) := by
  intro c
  rcases h c with hEq | ⟨next, hRun⟩
  · refine .inl ?_
    simp only [Rule.attempt, hEq]
  · exact .inr ⟨next, run_attempt_of_abort hRun⟩

theorem approximates_choice {rs ss : List (Rule α)} (h : List.Forall₂ Approximates rs ss) :
    (choice rs).Approximates (choice ss) := by
  intro c
  have hFrom : ∀ seen, (choiceFrom c seen rs).Approximates (choiceFrom c seen ss) := by
    induction h with
    | nil => exact fun seen => .refl _
    | @cons r s rs ss hr _ ih =>
      intro seen
      rcases hr c with hEq | ⟨next, hRun⟩
      · rw [choiceFrom, choiceFrom, hEq]
        cases s.run c with
        | ok a next => exact .refl _
        | abort e next => exact .refl _
        | mismatch m next =>
          by_cases hOffset : next.offset = c.offset
          · simp only [if_pos hOffset]
            exact ih _
          · simp only [if_neg hOffset]
            exact .refl _
      · refine .inr ⟨next, ?_⟩
        rw [choiceFrom, hRun]
  exact hFrom none

theorem Approximates.optional (h : r.Approximates s) : (optional r).Approximates (optional s) := by
  intro c
  rcases h c with hEq | ⟨next, hRun⟩
  · refine .inl ?_
    simp only [Rule.optional, hEq]
  · exact .inr ⟨next, run_optional_of_abort hRun⟩

/-- Both repetitions have the same rounds, up to one that is too deep. -/
theorem Approximates.repeated (h : r.Approximates s) (ahead : List Char) (c : Cursor) :
    (repeated r ahead c).Approximates (repeated s ahead c) := by
  induction ahead generalizing c with
  | nil =>
    rcases h c with hEq | ⟨next, hRun⟩
    · refine .inl ?_
      simp only [Rule.repeated, hEq]
    · refine .inr ⟨next, ?_⟩
      simp only [Rule.repeated, hRun]
  | cons ch ahead ih =>
    rcases h c with hEq | ⟨next, hRun⟩
    · rw [Rule.repeated, Rule.repeated, hEq]
      cases s.run c with
      | mismatch m next => exact .refl _
      | abort e next => exact .refl _
      | ok a next =>
        by_cases hLt : c.offset < next.offset
        · simp only [if_pos hLt]
          exact (ih next).andThen fun as last => .refl _
        · simp only [if_neg hLt]
          exact .refl _
    · refine .inr ⟨next, ?_⟩
      rw [Rule.repeated, hRun]

theorem Approximates.many (h : r.Approximates s) : (many r).Approximates (many s) :=
  fun c => h.repeated c.rest c

theorem Approximates.sepBy (h : r.Approximates s) (sep : Rule β) :
    (sepBy r sep).Approximates (sepBy s sep) := by
  refine h.optional.bind fun first => ?_
  cases first with
  | none => exact .refl _
  | some a =>
    have hItem : Approximates (do discard sep; r) (do discard sep; s) :=
      (Approximates.refl (discard sep)).bind fun _ => h
    exact hItem.many.bind fun as => .refl _

theorem Approximates.endBy (h : r.Approximates s) (sep : Rule β) :
    (endBy r sep).Approximates (endBy s sep) := by
  have hItem : Approximates (do let a ← r; discard sep; return a) (do let a ← s; discard sep; return a) :=
    h.bind fun a => .refl _
  exact hItem.many

end Rule

/-! ## How far a rule has come when it is too deep -/

/-- The cursor has not moved back, and it has moved by `k` characters at least if nesting was too deep. -/
def Outcome.TooDeepAfter {α : Type} (k : Nat) (c : Cursor) : Outcome α → Prop
  | .ok _ next => c.offset ≤ next.offset
  | .mismatch _ _ => True
  | .abort e next => e = .readingTooDeep → c.offset + k ≤ next.offset

namespace Rule

variable {α β : Type} {r : Rule α} {k : Nat}

/-- The rule moves by at least `k` characters before nesting is too deep for it. -/
def TooDeepAfter (k : Nat) (r : Rule α) : Prop :=
  ∀ c, (r.run c).TooDeepAfter k c

theorem TooDeepAfter.of_ok (hr : r.TooDeepAfter k) {c next : Cursor} {a : α}
    (hRun : r.run c = .ok a next) : c.offset ≤ next.offset := by
  have h := hr c
  rwa [hRun] at h

theorem TooDeepAfter.of_abort (hr : r.TooDeepAfter k) {c next : Cursor}
    (hRun : r.run c = .abort .readingTooDeep next) : c.offset + k ≤ next.offset := by
  have h := hr c
  rw [hRun] at h
  exact h rfl

theorem tooDeepAfter_abort : (abort .readingTooDeep : Rule α).TooDeepAfter 0 :=
  fun _ _ => Nat.le_refl _

theorem tooDeepAfter_pure (a : α) : (pure a : Rule α).TooDeepAfter k :=
  fun _ => Nat.le_refl _

theorem tooDeepAfter_ofExcept {x : Except Error α} (h : x ≠ .error .readingTooDeep) :
    (ofExcept x).TooDeepAfter k := by
  intro c
  cases x with
  | ok a => exact Nat.le_refl _
  | error e =>
    rintro rfl
    exact absurd rfl h

theorem tooDeepAfter_satisfy (p : Char → Bool) (expected : List String) :
    (satisfy p expected).TooDeepAfter k := by
  rintro ⟨offset, rest⟩
  cases rest with
  | nil => trivial
  | cons ch rest =>
    by_cases hp : p ch = true
    · rw [run_satisfy hp]
      exact Nat.le_succ offset
    · rw [run_satisfy_of_not (by simpa using hp)]
      trivial

theorem tooDeepAfter_notFollowedBy (p : Char → Bool) : (notFollowedBy p).TooDeepAfter k := by
  rintro ⟨offset, rest⟩
  cases rest with
  | nil => exact Nat.le_refl offset
  | cons ch rest =>
    unfold notFollowedBy
    dsimp only
    split
    · trivial
    · exact Nat.le_refl offset

theorem tooDeepAfter_word (text : String) : (word text).TooDeepAfter k := by
  intro c
  obtain ⟨w, hReach, -⟩ := advance_reaches text.toList c
  have hLe : c.offset ≤ (advance text.toList c).1.offset := by
    rw [hReach.offset]
    omega
  unfold word
  dsimp only
  generalize advance text.toList c = reached at hLe
  obtain ⟨next, whole⟩ := reached
  cases whole with
  | true => exact hLe
  | false => trivial

/-- A first rule that reads `j` characters puts the rules after it off by as many. -/
theorem tooDeepAfter_bind {f : α → Rule β} {j : Nat} (hr : r.TooDeepAfter (k + j))
    (hMoves : ∀ c a next, r.run c = .ok a next → c.offset + j ≤ next.offset)
    (hf : ∀ a, (f a).TooDeepAfter k) : (r >>= f).TooDeepAfter (k + j) := by
  intro c
  rw [run_bind]
  cases hRun : r.run c with
  | mismatch m next => trivial
  | abort e next =>
    rintro rfl
    exact hr.of_abort hRun
  | ok a middle =>
    have hFirst := hMoves c a middle hRun
    show ((f a).run middle).TooDeepAfter (k + j) c
    cases hRun' : (f a).run middle with
    | mismatch m next => trivial
    | ok b next =>
      have hSecond := (hf a).of_ok hRun'
      exact Nat.le_trans (Nat.le_trans (Nat.le_add_right _ _) hFirst) hSecond
    | abort e next =>
      rintro rfl
      have hSecond := (hf a).of_abort hRun'
      omega

theorem TooDeepAfter.bind {f : α → Rule β} (hr : r.TooDeepAfter k)
    (hf : ∀ a, (f a).TooDeepAfter k) : (r >>= f).TooDeepAfter k :=
  tooDeepAfter_bind (j := 0) hr (fun _ _ _ hRun => hr.of_ok hRun) hf

theorem TooDeepAfter.map (hr : r.TooDeepAfter k) (f : α → β) : (f <$> r).TooDeepAfter k :=
  hr.bind fun a => tooDeepAfter_pure (f a)

theorem TooDeepAfter.discard (hr : r.TooDeepAfter k) : (discard r).TooDeepAfter k :=
  hr.map fun _ => ()

theorem TooDeepAfter.attempt (hr : r.TooDeepAfter k) : (attempt r).TooDeepAfter k := by
  intro c
  cases hRun : r.run c with
  | mismatch m next =>
    rw [run_attempt_of_mismatch hRun]
    trivial
  | ok a next =>
    rw [run_attempt_of_ok hRun]
    exact hr.of_ok hRun
  | abort e next =>
    rw [run_attempt_of_abort hRun]
    rintro rfl
    exact hr.of_abort hRun

theorem tooDeepAfter_choice {rs : List (Rule α)} (h : ∀ r ∈ rs, r.TooDeepAfter k) :
    (choice rs).TooDeepAfter k := by
  intro c
  have hFrom : ∀ seen, (choiceFrom c seen rs).TooDeepAfter k c := by
    induction rs with
    | nil => exact fun seen => trivial
    | cons r rs ih =>
      obtain ⟨hr, hrs⟩ := List.forall_mem_cons.mp h
      intro seen
      unfold choiceFrom
      split
      · split
        · exact ih hrs _
        · trivial
      · exact hr c
  exact hFrom none

theorem TooDeepAfter.optional (hr : r.TooDeepAfter k) : (optional r).TooDeepAfter k := by
  intro c
  unfold Rule.optional
  dsimp only
  split
  · exact hr.of_ok ‹_›
  · split
    · exact Nat.le_of_eq (Eq.symm ‹_›)
    · trivial
  · rename_i hRun
    rintro rfl
    exact hr.of_abort hRun

/-- The induction follows the rounds. -/
theorem TooDeepAfter.repeated (hr : r.TooDeepAfter k) (ahead : List Char) (c : Cursor) :
    (repeated r ahead c).TooDeepAfter k c := by
  fun_induction Rule.repeated r ahead c with
  | case1 c a next hRun => exact hr.of_ok hRun
  | case2 c a next hRun _ ahead hLt ih =>
    cases hLater : Rule.repeated r ahead next with
    | mismatch m last => trivial
    | ok as last =>
      rw [hLater] at ih
      exact Nat.le_trans (Nat.le_of_lt hLt) ih
    | abort e last =>
      rw [hLater] at ih
      rintro rfl
      have hLast := ih rfl
      omega
  | case3 c a next hRun => exact hr.of_ok hRun
  | case4 _ c m next hRun hOffset => exact Nat.le_of_eq hOffset.symm
  | case5 _ c m next hRun => trivial
  | case6 _ c e next hRun =>
    rintro rfl
    exact hr.of_abort hRun

theorem TooDeepAfter.many (hr : r.TooDeepAfter k) : (many r).TooDeepAfter k :=
  fun c => hr.repeated c.rest c

theorem TooDeepAfter.many1 (hr : r.TooDeepAfter k) : (many1 r).TooDeepAfter k :=
  hr.bind fun _ => hr.many.bind fun _ => tooDeepAfter_pure _

theorem TooDeepAfter.sepBy {sep : Rule β} (hr : r.TooDeepAfter k) (hs : sep.TooDeepAfter k) :
    (sepBy r sep).TooDeepAfter k := by
  refine hr.optional.bind fun first => ?_
  cases first with
  | none => exact tooDeepAfter_pure _
  | some a => exact (hs.discard.bind fun _ => hr).many.bind fun _ => tooDeepAfter_pure _

theorem TooDeepAfter.endBy {sep : Rule β} (hr : r.TooDeepAfter k) (hs : sep.TooDeepAfter k) :
    (endBy r sep).TooDeepAfter k :=
  (hr.bind fun _ => hs.discard.bind fun _ => tooDeepAfter_pure _).many

end Rule

end MiniScheme
