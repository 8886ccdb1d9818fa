import Mathlib.Data.List.Forall2
import MiniScheme.Proofs.Reading.Run

/-!
# What refusals leave behind

A choice whose alternatives refuse goes on with one mismatch, into which theirs are merged. Its later
alternatives add to it or they do not. A rule that is `Silent` does not, so that the choice is the same
without it (`choiceFrom_append_of_silent`).

A rule that refuses with an expectation at the cursor (`Expects`) is silent if the choice has come further
already, or has the same expectation at the same place (`Mismatch.Knows`).
-/

namespace MiniScheme

/-! ## Refusals at the cursor -/

namespace Rule

variable {α β : Type} {r : Rule α} {c next : Cursor} {texts : List String}

/-- The rule refuses to start because one of the texts would have to be ahead. -/
def Expects (r : Rule α) (c : Cursor) (texts : List String) : Prop :=
  r.run c = .mismatch (.of c.offset texts c.found) c

theorem expects_satisfy {p : Char → Bool} (h : c.rest.head?.any p = false) :
    Expects (satisfy p texts) c texts :=
  run_satisfy_of_not h

theorem expects_char {ch : Char} (h : c.rest.head? ≠ some ch) :
    Expects (char ch) c [Text.quotedChar ch] :=
  run_char_of_ne h

/-- The word has another first character. -/
theorem expects_word {text : String} {ch : Char} {word : List Char} (hText : text.toList = ch :: word)
    (h : c.rest.head? ≠ some ch) : Expects (Rule.word text) c [Text.quoted text] := by
  have hAdvance : advance (ch :: word) c = (c, false) := by
    obtain ⟨offset, rest⟩ := c
    cases rest with
    | nil => rfl
    | cons head rest =>
      have hNe : head ≠ ch := by simpa using h
      simp only [advance, if_neg hNe]
  simp only [Expects, Rule.word, hText, hAdvance]

theorem Expects.bind (h : Expects r c texts) (f : α → Rule β) : Expects (r >>= f) c texts :=
  run_bind_of_mismatch h

theorem Expects.map (h : Expects r c texts) (f : α → β) : Expects (f <$> r) c texts :=
  run_bind_of_mismatch (f := fun a => pure (f a)) h

theorem Expects.discard (h : Expects r c texts) : Expects (discard r) c texts :=
  run_discard_of_mismatch h

theorem Expects.attempt (h : Expects r c texts) : Expects (attempt r) c texts :=
  run_attempt_of_mismatch h

/-- Alternatives that refuse at the cursor are refused together. -/
theorem expects_choice {rs : List (Rule α)} {expected : List (List String)} (hNe : rs ≠ [])
    (h : List.Forall₂ (fun r texts => Expects r c texts) rs expected) :
    Expects (choice rs) c expected.flatten := by
  have hFrom : ∀ (seen : List String) (rs : List (Rule α)) (expected : List (List String)),
      List.Forall₂ (fun r texts => Expects r c texts) rs expected →
      choiceFrom c (some (.of c.offset seen c.found)) rs =
        .mismatch (.of c.offset (seen ++ expected.flatten) c.found) c := by
    intro seen rs expected h
    induction h generalizing seen with
    | nil => simp [choiceFrom]
    | @cons r texts rs expected hr _ ih =>
      rw [choiceFrom, show r.run c = _ from hr]
      simp only [if_true, Mismatch.mergeOption, Mismatch.of_merge_of (found_ne_empty c), ih,
        List.flatten_cons, List.append_assoc]
  cases h with
  | nil => exact absurd rfl hNe
  | @cons r texts rs expected hr hrs =>
    show choiceFrom c none (r :: rs) = _
    rw [choiceFrom, show r.run c = _ from hr]
    simp only [if_true, Mismatch.mergeOption, hFrom _ _ _ hrs, List.flatten_cons]

/-- The rule refuses, and it does so at the cursor. -/
def RefusesHere (r : Rule α) (c : Cursor) : Prop :=
  ∃ m, r.run c = .mismatch m c ∧ m.position = c.offset

theorem Expects.refusesHere (h : Expects r c texts) : RefusesHere r c :=
  ⟨_, h, rfl⟩

theorem RefusesHere.bind (h : RefusesHere r c) (f : α → Rule β) : RefusesHere (r >>= f) c := by
  obtain ⟨m, hRun, hPosition⟩ := h
  exact ⟨m, run_bind_of_mismatch hRun, hPosition⟩

theorem RefusesHere.map (h : RefusesHere r c) (f : α → β) : RefusesHere (f <$> r) c :=
  RefusesHere.bind h fun a => pure (f a)

/-- A word is missed where it should begin, even if its first characters are there. -/
theorem refusesHere_word (text : String) (h : ¬ text.toList <+: c.rest) :
    RefusesHere (attempt (word text)) c := by
  obtain ⟨m, next, hRun⟩ := fails_word text h
  refine ⟨m, run_attempt_of_mismatch hRun, ?_⟩
  simp only [word] at hRun
  split at hRun
  · cases hRun
  · cases hRun
    rfl

/-- Alternatives that refuse at the cursor leave a mismatch there. -/
theorem exists_choiceFrom_append {rs : List (Rule α)} (h : ∀ r ∈ rs, RefusesHere r c)
    (rs' : List (Rule α)) (seen : Option Mismatch) (hSeen : ∀ m ∈ seen, m.position = c.offset) :
    ∃ seen' : Option Mismatch, (∀ m ∈ seen', m.position = c.offset) ∧
      choiceFrom c seen (rs ++ rs') = choiceFrom c seen' rs' := by
  induction rs generalizing seen with
  | nil => exact ⟨seen, hSeen, rfl⟩
  | cons r rs ih =>
    obtain ⟨⟨m, hRun, hPosition⟩, hrs⟩ := List.forall_mem_cons.mp h
    have hMerged : ∀ m' ∈ some (m.mergeOption seen), m'.position = c.offset := by
      rintro m' ⟨⟩
      cases seen with
      | none => exact hPosition
      | some s =>
        rw [Mismatch.mergeOption, Mismatch.position_merge, hPosition, hSeen s rfl, Nat.max_self]
    obtain ⟨seen', hSeen', hRest⟩ := ih hrs _ hMerged
    refine ⟨seen', hSeen', ?_⟩
    rw [List.cons_append, choiceFrom, hRun]
    simp only [if_true, hRest]

theorem refusesHere_choice {rs : List (Rule α)} (h : ∀ r ∈ rs, RefusesHere r c) :
    RefusesHere (choice rs) c := by
  obtain ⟨seen, hSeen, hFrom⟩ := exists_choiceFrom_append h [] none (by simp)
  rw [List.append_nil] at hFrom
  refine ⟨_, hFrom, ?_⟩
  cases seen with
  | none => rfl
  | some m => exact hSeen m rfl

/-- After alternatives that refuse at the cursor, one that gives up further on. -/
theorem run_choice_of_further {rs rs' : List (Rule α)} {m : Mismatch} (h : ∀ r ∈ rs, RefusesHere r c)
    (hRun : r.run c = .mismatch m next) (hFurther : c.offset < m.position)
    (hMoved : next.offset ≠ c.offset) : (choice (rs ++ r :: rs')).run c = .mismatch m next := by
  obtain ⟨seen, hSeen, hFrom⟩ := exists_choiceFrom_append h (r :: rs') none (by simp)
  show choiceFrom c none (rs ++ r :: rs') = _
  rw [hFrom, choiceFrom, hRun]
  simp only [if_neg hMoved]
  cases seen with
  | none => rfl
  | some s =>
    have hPosition := hSeen s rfl
    rw [Mismatch.mergeOption, Mismatch.merge_of_lt (by omega)]

/-- In a choice that does not match, the first alternative does not match either. It has refused and the others
have gone on from there, or its mismatch ends the choice. -/
theorem mismatch_of_choiceFrom_cons {rs : List (Rule α)} {seen : Option Mismatch} {m : Mismatch}
    (h : choiceFrom c seen (r :: rs) = .mismatch m next) :
    ∃ m' last, r.run c = .mismatch m' last ∧
      (last.offset = c.offset ∧ choiceFrom c (some (m'.mergeOption seen)) rs = .mismatch m next ∨
        last.offset ≠ c.offset ∧ next = last) := by
  rw [choiceFrom] at h
  cases hRun : r.run c with
  | ok a last =>
    rw [hRun] at h
    cases h
  | abort e last =>
    rw [hRun] at h
    cases h
  | mismatch m' last =>
    simp only [hRun] at h
    refine ⟨m', last, rfl, ?_⟩
    by_cases hLast : last.offset = c.offset
    · rw [if_pos hLast] at h
      exact .inl ⟨hLast, h⟩
    · rw [if_neg hLast] at h
      cases h
      exact .inr ⟨hLast, rfl⟩

/-- If a choice leaves the cursor alone, so has each of its alternatives, and none has come further. The
induction goes through the alternatives, with what was seen before them. -/
theorem refusals_of_choiceFrom {rs : List (Rule α)} {seen : Option Mismatch} {m : Mismatch}
    (h : choiceFrom c seen rs = .mismatch m next) (hStay : next.offset = c.offset) :
    (∀ s ∈ seen, s.position ≤ m.position) ∧ ∀ r ∈ rs, ∃ m' next', r.run c = .mismatch m' next' ∧
      next'.offset = c.offset ∧ m'.position ≤ m.position := by
  induction rs generalizing seen with
  | nil =>
    refine ⟨?_, by simp⟩
    rintro s ⟨⟩
    cases h
    exact Nat.le_refl _
  | cons r rs ih =>
    obtain ⟨m', last, hRun, ⟨hLast, hRest⟩ | ⟨hLast, rfl⟩⟩ := mismatch_of_choiceFrom_cons h
    · obtain ⟨hMerged, hrs⟩ := ih hRest
      have hMax := hMerged _ rfl
      rw [List.forall_mem_cons]
      cases seen with
      | none => exact ⟨by simp, ⟨m', last, hRun, hLast, hMax⟩, hrs⟩
      | some s =>
        rw [Mismatch.mergeOption, Mismatch.position_merge] at hMax
        refine ⟨?_, ⟨m', last, hRun, hLast, by omega⟩, hrs⟩
        rintro _ ⟨⟩
        omega
    · exact absurd hStay hLast

/-- A choice leaves the cursor alone if all alternatives do that do not match. -/
theorem choiceFrom_stays {rs : List (Rule α)} {seen : Option Mismatch} {m : Mismatch}
    (hrs : ∀ r ∈ rs, ∀ m next, r.run c = .mismatch m next → next = c)
    (h : choiceFrom c seen rs = .mismatch m next) : next = c := by
  induction rs generalizing seen with
  | nil =>
    cases h
    rfl
  | cons r rs ih =>
    obtain ⟨hr, hrs⟩ := List.forall_mem_cons.mp hrs
    obtain ⟨m', last, hRun, ⟨-, hRest⟩ | ⟨-, rfl⟩⟩ := mismatch_of_choiceFrom_cons h
    · exact ih hrs hRest
    · exact hr m' next hRun

theorem attempt_stays {m : Mismatch} (h : (attempt r).run c = .mismatch m next) : next = c := by
  obtain ⟨last, hRun⟩ := exists_run_of_attempt h
  cases h.symm.trans (run_attempt_of_mismatch hRun)
  rfl

theorem RefusesHere.position {m : Mismatch} (hr : RefusesHere r c) (h : r.run c = .mismatch m next) :
    m.position = c.offset := by
  obtain ⟨m', hRun, hPosition⟩ := hr
  cases h.symm.trans hRun
  exact hPosition

theorem RefusesHere.stays {m : Mismatch} (hr : RefusesHere r c) (h : r.run c = .mismatch m next) :
    next = c := by
  obtain ⟨m', hRun, -⟩ := hr
  cases h.symm.trans hRun
  rfl

end Rule

/-! ## Mismatches that know an expectation -/

/-- The mismatch lies behind the cursor, or it lies there and the texts are among its expectations. -/
def Mismatch.Knows (s : Mismatch) (c : Cursor) (texts : List String) : Prop :=
  c.offset < s.position ∨
    s.position = c.offset ∧ (∀ text ∈ texts, text ∈ s.expected) ∧ s.unexpected = some c.found

namespace Mismatch

variable {s m : Mismatch} {c : Cursor} {texts more : List String}

theorem Knows.position_le (h : s.Knows c texts) : c.offset ≤ s.position := by
  rcases h with hLt | ⟨hEq, -, -⟩
  · omega
  · omega

/-- An expectation is known once it has been merged. -/
theorem knows_merge (s : Mismatch) (c : Cursor) (texts : List String) :
    ((Mismatch.of c.offset texts c.found).merge s).Knows c texts := by
  rcases Nat.lt_trichotomy c.offset s.position with hLt | hEq | hGt
  · exact .inl (by rw [merge_of_gt hLt]; exact hLt)
  · rw [merge_of_eq (show (Mismatch.of c.offset texts c.found).position = s.position from hEq)]
    refine .inr ⟨rfl, fun text hText => ?_, ?_⟩
    · simp [of, List.mem_eraseDups, hText]
    · simp [of, nonempty, Option.filter, Rule.found_ne_empty c]
  · rw [merge_of_lt hGt]
    exact .inr ⟨rfl, fun text hText => by simpa [of, List.mem_eraseDups] using hText, rfl⟩

/-- It stays known when further expectations at the same place are merged. -/
theorem Knows.merge_of (h : s.Knows c texts) (more : List String) :
    ((Mismatch.of c.offset more c.found).merge s).Knows c texts := by
  refine (knows_merge s c more).imp_right ?_
  rintro ⟨hPosition, -, hFound⟩
  refine ⟨hPosition, fun text hText => ?_, hFound⟩
  rw [position_merge] at hPosition
  have hEq : c.offset = s.position := by
    have := h.position_le
    have hOf : (Mismatch.of c.offset more c.found).position = c.offset := rfl
    omega
  rcases h with hLt | ⟨-, hKnown, -⟩
  · omega
  · rw [merge_of_eq (show (Mismatch.of c.offset more c.found).position = s.position from hEq)]
    simp [of, List.mem_eraseDups, hKnown text hText]

/-- A mismatch before the cursor adds nothing to one that lies at the cursor or behind it. -/
theorem Knows.merge_of_lt (h : s.Knows c texts) (hm : m.position < c.offset) : m.merge s = s :=
  merge_of_gt (Nat.lt_of_lt_of_le hm h.position_le)

/-- An expectation that is known adds nothing. -/
theorem Knows.merge_of_subset (h : s.Knows c texts) (hMore : ∀ text ∈ more, text ∈ texts) :
    (Mismatch.of c.offset more c.found).merge s = s := by
  rcases h with hLt | ⟨hEq, hKnown, hFound⟩
  · exact merge_of_gt hLt
  · refine merge_eq_earlier hEq.symm (fun text hText => ?_) hFound.symm
    rw [of, List.mem_eraseDups] at hText
    exact hKnown text (hMore text hText)

end Mismatch

/-! ## Alternatives that add nothing -/

namespace Rule

variable {α : Type} {r : Rule α} {c : Cursor} {seen : Mismatch}

/-- The rule does not match, and its mismatch adds nothing to `seen`. -/
def Silent (r : Rule α) (c : Cursor) (seen : Mismatch) : Prop :=
  ∃ m next, r.run c = .mismatch m next ∧ m.merge seen = seen

/-- Nothing is added at the cursor to a mismatch behind it. -/
theorem RefusesHere.silent (h : RefusesHere r c) (hSeen : c.offset < seen.position) :
    Silent r c seen := by
  obtain ⟨m, hRun, hPosition⟩ := h
  exact ⟨m, c, hRun, Mismatch.merge_of_gt (by omega)⟩

theorem choiceFrom_append_of_silent {rs : List (Rule α)} (h : ∀ r ∈ rs, Silent r c seen)
    (rs' : List (Rule α)) :
    choiceFrom c (some seen) (rs.map attempt ++ rs') = choiceFrom c (some seen) rs' := by
  induction rs with
  | nil => rfl
  | cons r rs ih =>
    obtain ⟨⟨m, next, hRun, hMerge⟩, hrs⟩ := List.forall_mem_cons.mp h
    rw [List.map_cons, List.cons_append, choiceFrom, run_attempt_of_mismatch hRun]
    simp only [if_true, Mismatch.mergeOption, hMerge]
    exact ih hrs

/-- Two choices with the same first alternative are compared where it refuses. -/
theorem choiceFrom_cons_congr {P : List Char → α → Prop} (hr : r.Reads P) {rs rs' : List (Rule α)}
    {seen : Option Mismatch}
    (h : ∀ m, r.run c = .mismatch m c →
      choiceFrom c (some (m.mergeOption seen)) rs = choiceFrom c (some (m.mergeOption seen)) rs') :
    choiceFrom c seen (r :: rs) = choiceFrom c seen (r :: rs') := by
  rw [choiceFrom, choiceFrom]
  cases hRun : r.run c with
  | ok a next => rfl
  | abort e next => rfl
  | mismatch m next =>
    obtain ⟨⟨w, hReach⟩, -⟩ := hr.of_mismatch hRun
    by_cases hOffset : next.offset = c.offset
    · obtain ⟨-, rfl⟩ := hReach.eq_of_offset hOffset
      simp only [if_true, h m hRun]
    · simp only [if_neg hOffset]

end Rule

end MiniScheme
