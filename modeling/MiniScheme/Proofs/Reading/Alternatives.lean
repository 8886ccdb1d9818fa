import Mathlib.Data.List.Forall2
import Mathlib.Data.List.Induction
import MiniScheme.Proofs.Reading.Run

/-!
# Many alternatives

What is left of several mismatches is told from all of them at once (`merging_in_closed_form`): the offset is
the highest one, and the mismatches at that offset are pooled. The order in which they are merged is not seen
in the result, only the order in which they came (`merge_assoc`).

So a choice may be taken in parts. Alternatives that are put together to a choice of their own, among other
alternatives, are the same as all of them in one row (`choice_flatten`).
-/

namespace MiniScheme

namespace Mismatch

/-! ## Any number of mismatches -/

/-- What mismatches in one place have found: the latest text that is not empty, or else what the first of them
has. -/
def foundBy (ms : List Mismatch) : Option String :=
  (ms.filterMap fun m => nonempty m.unexpected).getLast?.or (ms.head?.bind unexpected)

/-- Mismatches in one place, as one. -/
def pool (position : Nat) (ms : List Mismatch) : Mismatch :=
  .of position (ms.flatMap expected) (foundBy ms)

theorem foundBy_singleton (m : Mismatch) : foundBy [m] = m.unexpected := by
  unfold foundBy
  rw [List.filterMap_cons, List.head?_cons, Option.bind_some]
  cases hFound : nonempty m.unexpected with
  | none => rfl
  | some text => exact (Option.filter_eq_some_iff.mp hFound).1.symm

theorem foundBy_concat {ms : List Mismatch} (h : ms ≠ []) (m : Mismatch) :
    foundBy (ms ++ [m]) = (nonempty m.unexpected).or (foundBy ms) := by
  unfold foundBy
  rw [List.filterMap_append, List.head?_append_of_ne_nil ms h]
  cases hFound : nonempty m.unexpected with
  | none => simp [hFound]
  | some text => simp [hFound]

theorem pool_singleton (m : Mismatch) : pool m.position [m] = m := by
  rw [pool, foundBy_singleton, List.flatMap_singleton]
  exact Mismatch.ext rfl (eraseDups_of_nodup m.nodup) rfl

theorem merge_pool {ms : List Mismatch} (h : ms ≠ []) (m : Mismatch) :
    m.merge (pool m.position ms) = pool m.position (ms ++ [m]) := by
  have hPosition : m.position = (pool m.position ms).position := rfl
  rw [merge_of_eq hPosition]
  simp only [pool, of, eraseDups_append_left, foundBy_concat h, List.flatMap_append,
    List.flatMap_singleton]

/-- The mismatches at the given offset. -/
def atOffset (ms : List Mismatch) (position : Nat) : List Mismatch :=
  ms.filter fun m => m.position = position

theorem atOffset_concat (ms : List Mismatch) (m : Mismatch) (k : Nat) :
    atOffset (ms ++ [m]) k = atOffset ms k ++ if m.position = k then [m] else [] := by
  rw [atOffset, List.filter_append, List.filter_singleton]
  simp [atOffset]

/-- The mismatch is all those at the highest offset, pooled. -/
structure Pools (ms : List Mismatch) (m : Mismatch) : Prop where
  reached : atOffset ms m.position ≠ []
  bound : ∀ other ∈ ms, other.position ≤ m.position
  pooled : m = pool m.position (atOffset ms m.position)

theorem pools_singleton (m : Mismatch) : Pools [m] m := by
  have hAlone : atOffset [m] m.position = [m] := by simp [atOffset]
  refine ⟨?_, ?_, ?_⟩
  · rw [hAlone]
    exact List.cons_ne_nil m []
  · simp
  · rw [hAlone, pool_singleton]

/-- One mismatch more is dropped, pooled with the others or alone at its offset. -/
theorem Pools.merge {ms : List Mismatch} {m : Mismatch} (h : Pools ms m) (later : Mismatch) :
    Pools (ms ++ [later]) (later.merge m) := by
  have hBound : ∀ other ∈ ms ++ [later], other.position ≤ (later.merge m).position := by
    rw [position_merge, List.forall_mem_append, List.forall_mem_singleton]
    refine ⟨fun other hOther => ?_, by omega⟩
    have := h.bound other hOther
    omega
  rcases Nat.lt_trichotomy later.position m.position with hk | hk | hk
  · have hSame : atOffset (ms ++ [later]) m.position = atOffset ms m.position := by
      rw [atOffset_concat, if_neg (by omega), List.append_nil]
    rw [merge_of_gt hk] at hBound ⊢
    refine ⟨?_, hBound, ?_⟩
    · rw [hSame]
      exact h.reached
    · rw [hSame]
      exact h.pooled
  · have hMore : atOffset (ms ++ [later]) later.position = atOffset ms later.position ++ [later] := by
      rw [atOffset_concat, if_pos rfl]
    have hReached : atOffset ms later.position ≠ [] := by
      rw [hk]
      exact h.reached
    have hMerged : later.merge m = pool later.position (atOffset ms later.position ++ [later]) := by
      rw [← merge_pool hReached, hk, ← h.pooled]
    have hPosition : (later.merge m).position = later.position := by
      rw [hMerged]
      rfl
    refine ⟨?_, hBound, ?_⟩
    · rw [hPosition, hMore]
      simp
    · rw [hPosition, hMore, hMerged]
  · have hAlone : atOffset (ms ++ [later]) later.position = [later] := by
      have hNone : atOffset ms later.position = [] := by
        rw [atOffset, List.filter_eq_nil_iff]
        intro other hOther
        have := h.bound other hOther
        simp only [decide_eq_true_eq]
        omega
      rw [atOffset_concat, if_pos rfl, hNone, List.nil_append]
    rw [merge_of_lt hk] at hBound ⊢
    refine ⟨?_, hBound, ?_⟩
    · rw [hAlone]
      exact List.cons_ne_nil later []
    · rw [hAlone, pool_singleton]

theorem mergeAll_concat (ms : List Mismatch) (m : Mismatch) :
    mergeAll (ms ++ [m]) = some (m.mergeOption (mergeAll ms)) := by
  rw [mergeAll, List.foldl_append]
  rfl

/-- Mismatches that are merged one after the other are pooled. -/
theorem pools_mergeAll {ms : List Mismatch} (hNe : ms ≠ []) :
    ∃ m, mergeAll ms = some m ∧ Pools ms m := by
  induction ms using List.reverseRecOn with
  | nil => exact absurd rfl hNe
  | append_singleton ms later ih =>
    rw [mergeAll_concat]
    by_cases hFirst : ms = []
    · subst hFirst
      exact ⟨later, rfl, pools_singleton later⟩
    · obtain ⟨m, hMerged, hPools⟩ := ih hFirst
      rw [hMerged]
      exact ⟨later.merge m, rfl, hPools.merge later⟩

theorem Pools.max?_position {ms : List Mismatch} {m : Mismatch} (h : Pools ms m) :
    (ms.map position).max? = some m.position := by
  obtain ⟨other, hOther⟩ := List.exists_mem_of_ne_nil _ h.reached
  obtain ⟨hMem, hPosition⟩ := List.mem_filter.mp hOther
  rw [List.max?_eq_some_iff, List.forall_mem_map, List.mem_map]
  exact ⟨⟨other, hMem, of_decide_eq_true hPosition⟩, h.bound⟩

/-! ## Alternatives that refuse -/

/-- The rules refuse to start at `c`, with these mismatches. -/
def RefusedBy {α : Type} (c : Cursor) (ms : List Mismatch) (rs : List (Rule α)) : Prop :=
  List.Forall₂ (fun r m => ∃ next, r.run c = .mismatch m next ∧ next.offset = c.offset) rs ms

theorem choiceFrom_of_refusedBy {α : Type} {c : Cursor} {rs : List (Rule α)} {ms : List Mismatch}
    (h : RefusedBy c ms rs) (seen : Option Mismatch) {last : Mismatch}
    (hLast : ms.foldl (fun seen m => some (m.mergeOption seen)) seen = some last) :
    Rule.choiceFrom c seen rs = .mismatch last c := by
  induction h generalizing seen with
  | nil =>
    rw [List.foldl_nil] at hLast
    rw [hLast]
    rfl
  | cons hr _ ih =>
    obtain ⟨next, hRun, hStay⟩ := hr
    rw [Rule.choiceFrom, hRun]
    simp only [if_pos hStay]
    exact ih _ hLast

/-- A choice whose alternatives all refuse leaves their mismatches, merged one after the other. -/
theorem run_choice_of_refusedBy {α : Type} {c : Cursor} {rs : List (Rule α)} {ms : List Mismatch}
    (hNe : rs ≠ []) (h : RefusedBy c ms rs) :
    ∃ m, mergeAll ms = some m ∧ (Rule.choice rs).run c = .mismatch m c := by
  have hMs : ms ≠ [] := by
    rintro rfl
    cases h
    exact hNe rfl
  obtain ⟨others, m, rfl⟩ := (List.eq_nil_or_concat' ms).resolve_left hMs
  exact ⟨_, mergeAll_concat others m, choiceFrom_of_refusedBy h none (mergeAll_concat others m)⟩

/-- Mismatches that are merged one after the other, the first one first, give one at the highest offset. It
expects what those at that offset expect, in their order and without repetition, and has found what the latest
of them has that found something to name, or else what the first of them has. This is what a choice leaves if
all its alternatives refuse. Merging is associative and idempotent, and expects nothing twice. -/
theorem merging_in_closed_form :
    (∀ ms : List Mismatch, ms ≠ [] →
      ∃ m, mergeAll ms = some m ∧ (ms.map position).max? = some m.position ∧
        m.expected = ((atOffset ms m.position).flatMap expected).eraseDups ∧
        m.unexpected = foundBy (atOffset ms m.position) ∧ m.expected.Nodup) ∧
    (∀ (α : Type) (c : Cursor) (rs : List (Rule α)) (ms : List Mismatch), rs ≠ [] →
      RefusedBy c ms rs → ∃ m, mergeAll ms = some m ∧ (Rule.choice rs).run c = .mismatch m c) ∧
    (∀ a b c : Mismatch, (a.merge b).merge c = a.merge (b.merge c)) ∧
    (∀ m : Mismatch, m.merge m = m) ∧
    ∀ later earlier : Mismatch, (later.merge earlier).expected.Nodup := by
  refine ⟨?_, ?_, merge_assoc, merge_self, fun later earlier => (later.merge earlier).nodup⟩
  · intro ms hNe
    obtain ⟨m, hMerged, hPools⟩ := pools_mergeAll hNe
    exact ⟨m, hMerged, hPools.max?_position, congrArg expected hPools.pooled,
      congrArg unexpected hPools.pooled, m.nodup⟩
  · intro α c rs ms hNe hRefuse
    exact run_choice_of_refusedBy hNe hRefuse

/-- Two of four mismatches lie furthest on, and the later of them has found nothing that it could name. Two
alternatives that refuse at the same place are pooled. -/
theorem merging_in_closed_form_four :
    let ms : List Mismatch := [.of 1 ["a"] (some "x"), .of 3 ["b", "c", "b"] (some "y"),
      .of 2 ["d"] none, .of 3 ["c", "e"] (some "")]
    ms ≠ [] ∧
    (∃ m, mergeAll ms = some m ∧ m.position = 3 ∧ m.expected = ["b", "c", "e"] ∧
      m.unexpected = some "y") ∧
    (Rule.choice [Rule.char 'b', Rule.char 'c']).run (.start ['a']) =
      .mismatch (.of 0 ["'b'", "'c'"] (some "'a'")) (.start ['a']) := by
  intro ms
  have hNe : ms ≠ [] := List.cons_ne_nil _ _
  obtain ⟨m, hMerged, hPosition, hExpected, hUnexpected, -⟩ := merging_in_closed_form.1 ms hNe
  have hThree : m.position = 3 := (Option.some.inj hPosition).symm
  rw [hThree] at hExpected hUnexpected
  refine ⟨hNe, ⟨m, hMerged, hThree, ?_, ?_⟩, ?_⟩
  · rw [hExpected]
    decide
  · rw [hUnexpected]
    decide
  · have hRefuse : RefusedBy (.start ['a']) [.of 0 ["'b'"] (some "'a'"), .of 0 ["'c'"] (some "'a'")]
        [Rule.char 'b', Rule.char 'c'] :=
      .cons ⟨_, rfl, rfl⟩ (.cons ⟨_, rfl, rfl⟩ .nil)
    obtain ⟨m, hMerged, hRun⟩ :=
      merging_in_closed_form.2.1 Char _ _ _ (List.cons_ne_nil _ _) hRefuse
    cases hMerged
    exact hRun

end Mismatch

/-! ## Choices inside choices -/

namespace Rule

variable {α : Type} {c : Cursor}

/-- What is known from two rows of tries. -/
def known (later earlier : Option Mismatch) : Option Mismatch :=
  match later with
  | none => earlier
  | some m => some (m.mergeOption earlier)

theorem mergeOption_known (m : Mismatch) (later earlier : Option Mismatch) :
    m.mergeOption (known later earlier) = (m.mergeOption later).mergeOption earlier := by
  cases later with
  | none => rfl
  | some m' =>
    cases earlier with
    | none => rfl
    | some m'' => exact (Mismatch.merge_assoc m m' m'').symm

/-- What a choice makes of the outcome of its first alternative, with the others still to come. -/
def goOn (c : Cursor) (seen : Option Mismatch) (rs : List (Rule α)) : Outcome α → Outcome α
  | .mismatch m next =>
    if next.offset = c.offset then choiceFrom c (some (m.mergeOption seen)) rs
    else .mismatch (m.mergeOption seen) next
  | o => o

theorem choiceFrom_cons (c : Cursor) (seen : Option Mismatch) (r : Rule α) (rs : List (Rule α)) :
    choiceFrom c seen (r :: rs) = goOn c seen rs (r.run c) := by
  rw [choiceFrom]
  cases r.run c <;> rfl

/-- A choice among alternatives that has seen something, or is going to see something, goes on with the
alternatives after it as if they were its own. -/
theorem goOn_choiceFrom (seen inner : Option Mismatch) (ys zs : List (Rule α))
    (h : ys ≠ [] ∨ inner ≠ none) :
    goOn c seen zs (choiceFrom c inner ys) = choiceFrom c (known inner seen) (ys ++ zs) := by
  induction ys generalizing inner with
  | nil =>
    obtain ⟨m, rfl⟩ := Option.ne_none_iff_exists'.mp (h.resolve_left fun hNe => hNe rfl)
    simp only [choiceFrom, goOn, Option.getD_some, if_true, known, List.nil_append]
  | cons y ys ih =>
    rw [List.cons_append, choiceFrom_cons, choiceFrom_cons]
    cases y.run c with
    | ok a next => rfl
    | abort e next => rfl
    | mismatch m next =>
      simp only [goOn, mergeOption_known]
      by_cases hStay : next.offset = c.offset
      · rw [if_pos hStay, if_pos hStay]
        exact ih (some (m.mergeOption inner)) (.inr (Option.some_ne_none _))
      · rw [if_neg hStay, if_neg hStay]
        simp only [if_neg hStay]

/-- A choice of one or more alternatives among other alternatives is the same as all of them in one row,
whatever the alternatives do: the same value, the same mismatch and the same cursor. -/
theorem choice_flatten (xs ys zs : List (Rule α)) (h : ys ≠ []) (c : Cursor) :
    (choice (xs ++ choice ys :: zs)).run c = (choice (xs ++ (ys ++ zs))).run c := by
  have hFrom : ∀ seen, choiceFrom c seen (xs ++ choice ys :: zs) =
      choiceFrom c seen (xs ++ (ys ++ zs)) := by
    induction xs with
    | nil =>
      intro seen
      rw [List.nil_append, List.nil_append, choiceFrom_cons]
      exact goOn_choiceFrom seen none ys zs (.inl h)
    | cons x xs ih =>
      intro seen
      rw [List.cons_append, List.cons_append, choiceFrom_cons, choiceFrom_cons]
      cases x.run c with
      | ok a next => rfl
      | abort e next => rfl
      | mismatch m next => simp only [goOn, ih]
  exact hFrom none

/-- The last alternative of the inner choice has read a character, so the outer one ends there too. -/
theorem choice_flatten_moved :
    [attempt (word "ab"), word "ac"] ≠ [] ∧
    (choice ([word "b"] ++ choice [attempt (word "ab"), word "ac"] :: [word "ad"])).run
        (.start "ax".toList) =
      .mismatch (.of 0 ["'b'", "'ab'", "'ac'"] (some "'x'")) ⟨1, ['x']⟩ := by
  have hNe : [attempt (word "ab"), word "ac"] ≠ [] := List.cons_ne_nil _ _
  refine ⟨hNe, ?_⟩
  rw [choice_flatten _ _ _ hNe]
  rfl

end Rule

end MiniScheme
