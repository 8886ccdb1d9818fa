import MiniScheme.Proofs.Reading.Postcondition
import MiniScheme.Proofs.Text.Classes

/-!
# How rules run

Equations for what a rule does at a given cursor. A rule that `Refuses` to start leaves the cursor alone;
a choice goes on past such a rule, and a repetition ends there. A rule that `Fails` may have read something
first; `attempt` turns failing into refusing.

The rules for one character of a class (`IsClass`) are repeated up to the first character outside the class.
-/

namespace MiniScheme

/-- Of two outcomes the first, or the second if the first is a mismatch. Two mismatches are merged. -/
def Outcome.orElse {α : Type} (first second : Outcome α) : Outcome α :=
  match first, second with
  | .mismatch m _, .mismatch m' next => .mismatch (m'.merge m) next
  | .mismatch _ _, other => other
  | other, _ => other

@[simp] theorem Outcome.ok_orElse {α : Type} (a : α) (next : Cursor) (o : Outcome α) :
    (Outcome.ok a next).orElse o = .ok a next := rfl

@[simp] theorem Outcome.abort_orElse {α : Type} (e : Error) (next : Cursor) (o : Outcome α) :
    (Outcome.abort e next).orElse o = .abort e next := rfl

namespace Rule

variable {α β : Type} {r : Rule α} {c next : Cursor} {a : α}

/-- Rules with the same outcome everywhere are the same rule. -/
@[ext] theorem ext {r s : Rule α} (h : ∀ c, r.run c = s.run c) : r = s := by
  cases r
  cases s
  exact congrArg Rule.mk (funext h)

/-! ## Failing and refusing -/

/-- The rule does not match. -/
def Fails (r : Rule α) (c : Cursor) : Prop :=
  ∃ m next, r.run c = .mismatch m next

theorem Refuses.fails (h : Refuses r c) : Fails r c := by
  obtain ⟨m, hRun⟩ := h
  exact ⟨m, c, hRun⟩

theorem Refuses.bind (h : Refuses r c) (f : α → Rule β) : Refuses (r >>= f) c := by
  obtain ⟨m, hRun⟩ := h
  exact ⟨m, by rw [run_bind, hRun]; rfl⟩

theorem Refuses.map (h : Refuses r c) (f : α → β) : Refuses (f <$> r) c := by
  obtain ⟨m, hRun⟩ := h
  exact ⟨m, by rw [run_map, hRun]; rfl⟩

theorem Refuses.discard (h : Refuses r c) : Refuses (discard r) c :=
  h.map fun _ => ()

theorem Fails.bind (h : Fails r c) (f : α → Rule β) : Fails (r >>= f) c := by
  obtain ⟨m, next, hRun⟩ := h
  exact ⟨m, next, by rw [run_bind, hRun]; rfl⟩

theorem Fails.map (h : Fails r c) (f : α → β) : Fails (f <$> r) c := by
  obtain ⟨m, next, hRun⟩ := h
  exact ⟨m, next, by rw [run_map, hRun]; rfl⟩

/-- The first rule matches and the second does not. -/
theorem fails_bind_of_ok {f : α → Rule β} (hRun : r.run c = .ok a next) (h : Fails (f a) next) :
    Fails (r >>= f) c := by
  obtain ⟨m, last, hRun'⟩ := h
  exact ⟨m, last, by rw [run_bind, hRun]; exact hRun'⟩

theorem run_bind_of_ok {f : α → Rule β} (hRun : r.run c = .ok a next) :
    (r >>= f).run c = (f a).run next := by
  rw [run_bind, hRun]
  rfl

theorem run_bind_of_mismatch {f : α → Rule β} {m : Mismatch} (hRun : r.run c = .mismatch m next) :
    (r >>= f).run c = .mismatch m next := by
  rw [run_bind, hRun]
  rfl

theorem run_bind_of_abort {f : α → Rule β} {e : Error} (hRun : r.run c = .abort e next) :
    (r >>= f).run c = .abort e next := by
  rw [run_bind, hRun]
  rfl

theorem run_discard_of_ok (hRun : r.run c = .ok a next) : (discard r).run c = .ok () next := by
  rw [run_discard, hRun]
  rfl

theorem run_discard_of_mismatch {m : Mismatch} (hRun : r.run c = .mismatch m next) :
    (discard r).run c = .mismatch m next := by
  rw [run_discard, hRun]
  rfl

/-- An attempt changes mismatches only. -/
theorem run_attempt_of_run {o : Outcome α} (ho : ∀ m next, o ≠ .mismatch m next)
    (hRun : r.run c = o) : (attempt r).run c = o := by
  cases o with
  | mismatch m next => exact absurd rfl (ho m next)
  | ok a next => simp only [attempt, hRun]
  | abort e next => simp only [attempt, hRun]

theorem run_attempt_of_ok (hRun : r.run c = .ok a next) : (attempt r).run c = .ok a next :=
  run_attempt_of_run (by simp) hRun

/-- An attempt that does not match puts the cursor back. -/
theorem run_attempt_of_mismatch {m : Mismatch} (hRun : r.run c = .mismatch m next) :
    (attempt r).run c = .mismatch m c := by
  simp only [attempt, hRun]

theorem exists_run_of_attempt {m : Mismatch} (h : (attempt r).run c = .mismatch m next) :
    ∃ last, r.run c = .mismatch m last := by
  unfold attempt at h
  dsimp only at h
  split at h
  · cases h
    exact ⟨_, ‹_›⟩
  · exact ⟨next, h⟩

theorem Fails.attempt (h : Fails r c) : Refuses (attempt r) c := by
  obtain ⟨m, next, hRun⟩ := h
  exact ⟨m, run_attempt_of_mismatch hRun⟩

/-! ## Alternatives -/

/-- What was seen before matters to mismatches only. -/
theorem choiceFrom_eq_iff {o : Outcome α} (ho : ∀ m next, o ≠ .mismatch m next)
    (seen seen' : Option Mismatch) (rs : List (Rule α)) :
    choiceFrom c seen rs = o ↔ choiceFrom c seen' rs = o := by
  induction rs generalizing seen seen' with
  | nil => exact iff_of_false (ho _ _).symm (ho _ _).symm
  | cons r rs ih =>
    unfold choiceFrom
    split
    · split
      · exact ih _ _
      · exact iff_of_false (ho _ _).symm (ho _ _).symm
    · rfl

/-- The first alternative decides unless it does not match. -/
theorem run_choice_of_run {o : Outcome α} (ho : ∀ m next, o ≠ .mismatch m next)
    {rs : List (Rule α)} (hRun : r.run c = o) : (choice (r :: rs)).run c = o := by
  show choiceFrom c none (r :: rs) = _
  unfold choiceFrom
  split
  · rename_i m next hMismatch
    exact absurd (hRun.symm.trans hMismatch) (ho m next)
  · exact hRun

/-- The first alternative decides if it has read something. -/
theorem run_choice_of_moved {o : Outcome α} (ho : ∀ m next, o = .mismatch m next → next.offset ≠ c.offset)
    {rs : List (Rule α)} (hRun : r.run c = o) : (choice (r :: rs)).run c = o := by
  cases o with
  | ok a next => exact run_choice_of_run (by simp) hRun
  | abort e next => exact run_choice_of_run (by simp) hRun
  | mismatch m next =>
    show choiceFrom c none (r :: rs) = _
    simp only [choiceFrom, hRun, if_neg (ho m next rfl), Mismatch.mergeOption]

/-- Alternatives that refuse are passed over. -/
theorem run_choice_append {o : Outcome α} (ho : ∀ m next, o ≠ .mismatch m next)
    {rs rs' : List (Rule α)} (h : ∀ r ∈ rs, Refuses r c) :
    (choice (rs ++ rs')).run c = o ↔ (choice rs').run c = o := by
  induction rs with
  | nil => rfl
  | cons r rs ih =>
    rw [List.forall_mem_cons] at h
    rw [← ih h.2]
    obtain ⟨m, hRun⟩ := h.1
    show choiceFrom c none (r :: (rs ++ rs')) = _ ↔ choiceFrom c none (rs ++ rs') = _
    rw [choiceFrom, hRun]
    simp only [if_true]
    exact choiceFrom_eq_iff ho _ _ _

theorem run_choice_of_ok {rs : List (Rule α)} (hRun : r.run c = .ok a next) :
    (choice (r :: rs)).run c = .ok a next :=
  run_choice_of_run (by simp) hRun

theorem run_choice_of_refuses {rs : List (Rule α)} (h : Refuses r c) :
    (choice (r :: rs)).run c = .ok a next ↔ (choice rs).run c = .ok a next :=
  run_choice_append (by simp) (List.forall_mem_singleton.mpr h)

theorem refuses_choice {rs : List (Rule α)} (h : ∀ r ∈ rs, Refuses r c) : Refuses (choice rs) c := by
  have hFrom : ∀ seen, ∃ m, choiceFrom c seen rs = .mismatch m c := by
    induction rs with
    | nil => exact fun seen => ⟨_, rfl⟩
    | cons r rs ih =>
      intro seen
      obtain ⟨m, hRun⟩ := h r List.mem_cons_self
      rw [choiceFrom, hRun]
      simp only [if_true]
      exact ih (fun r' hr' => h r' (List.mem_cons_of_mem r hr')) _
  exact hFrom none

theorem fails_choice {rs : List (Rule α)} (h : ∀ r ∈ rs, Fails r c) : Fails (choice rs) c := by
  have hFrom : ∀ seen, ∃ m next, choiceFrom c seen rs = .mismatch m next := by
    induction rs with
    | nil => exact fun seen => ⟨_, c, rfl⟩
    | cons r rs ih =>
      intro seen
      obtain ⟨m, next, hRun⟩ := h r List.mem_cons_self
      rw [choiceFrom, hRun]
      by_cases hOffset : next.offset = c.offset
      · simp only [if_pos hOffset]
        exact ih (fun r' hr' => h r' (List.mem_cons_of_mem r hr')) _
      · exact ⟨m.mergeOption seen, next, by simp only [if_neg hOffset]⟩
  exact hFrom none

/-- A choice between two rules, of which the first does not match unless it leaves the cursor alone. -/
theorem run_choice_pair {P : List Char → α → Prop} {r s : Rule α}
    (hr : ∀ m next, r.run c = .mismatch m next → next = c) (hs : s.Reads P) :
    (choice [r, s]).run c = (r.run c).orElse (s.run c) := by
  show choiceFrom c none [r, s] = _
  cases hRun : r.run c with
  | ok a next => simp only [choiceFrom, hRun, Outcome.ok_orElse]
  | abort e next => simp only [choiceFrom, hRun, Outcome.abort_orElse]
  | mismatch m next =>
    obtain rfl := hr m next hRun
    cases hRun' : s.run next with
    | ok a last => simp only [choiceFrom, hRun, hRun', if_true, Outcome.orElse]
    | abort e last => simp only [choiceFrom, hRun, hRun', if_true, Outcome.orElse]
    | mismatch m' last =>
      obtain ⟨⟨w, hReach⟩, -⟩ := hs.of_mismatch hRun'
      by_cases hOffset : last.offset = next.offset
      · obtain ⟨-, rfl⟩ := hReach.eq_of_offset hOffset
        simp only [choiceFrom, hRun, hRun', if_true, Outcome.orElse, Mismatch.mergeOption,
          Option.getD_some]
      · simp only [choiceFrom, hRun, hRun', if_true, if_neg hOffset, Outcome.orElse,
          Mismatch.mergeOption]

theorem run_choice_of_mismatch {P : List Char → α → Prop} {r s : Rule α} {m : Mismatch}
    (hRun : r.run c = .mismatch m c) (hs : s.Reads P) :
    (choice [r, s]).run c = (Outcome.mismatch m next).orElse (s.run c) := by
  rw [run_choice_pair (fun m' next' hRun' => ?_) hs, hRun]
  · cases s.run c <;> rfl
  · rw [hRun] at hRun'
    cases hRun'
    rfl

theorem run_choice_attempt {P : List Char → α → Prop} {r s : Rule α} (hs : s.Reads P) :
    (choice [attempt r, s]).run c = (r.run c).orElse (s.run c) := by
  cases hRun : r.run c with
  | ok a next => exact run_choice_of_ok (run_attempt_of_ok hRun)
  | abort e next => exact run_choice_of_run (by simp) (run_attempt_of_run (by simp) hRun)
  | mismatch m next => exact run_choice_of_mismatch (run_attempt_of_mismatch hRun) hs

theorem run_optional_of_ok (hRun : r.run c = .ok a next) :
    (optional r).run c = .ok (some a) next := by
  simp only [Rule.optional, hRun]

theorem run_optional_of_refuses (h : Refuses r c) : (optional r).run c = .ok none c := by
  obtain ⟨m, hRun⟩ := h
  simp only [Rule.optional, hRun, if_true]

theorem run_optional_of_moved {m : Mismatch} (hRun : r.run c = .mismatch m next)
    (hMoved : next.offset ≠ c.offset) : (optional r).run c = .mismatch m next := by
  simp only [Rule.optional, hRun, if_neg hMoved]

theorem run_optional_of_abort {e : Error} (hRun : r.run c = .abort e next) :
    (optional r).run c = .abort e next := by
  simp only [Rule.optional, hRun]

/-! ## Characters -/

theorem run_satisfy {p : Char → Bool} {expected : List String} {offset : Nat} {ch : Char}
    {rest : List Char} (h : p ch = true) :
    (satisfy p expected).run ⟨offset, ch :: rest⟩ = .ok ch ⟨offset + 1, rest⟩ := by
  simp only [satisfy, h, if_true]

/-- A refusal at the cursor, because the character ahead is not in the class. -/
theorem run_satisfy_of_not {p : Char → Bool} {expected : List String}
    (h : c.rest.head?.any p = false) :
    (satisfy p expected).run c = .mismatch (.of c.offset expected c.found) c := by
  obtain ⟨offset, rest⟩ := c
  cases rest with
  | nil => rfl
  | cons ch rest =>
    simp only [List.head?_cons, Option.any_some] at h
    simp [satisfy, h]

theorem refuses_satisfy {p : Char → Bool} {expected : List String}
    (h : c.rest.head?.any p = false) : Refuses (satisfy p expected) c :=
  ⟨_, run_satisfy_of_not h⟩

theorem run_char (offset : Nat) (ch : Char) (rest : List Char) :
    (char ch).run ⟨offset, ch :: rest⟩ = .ok ch ⟨offset + 1, rest⟩ :=
  run_satisfy (beq_self_eq_true ch)

theorem run_char_of_ne {ch : Char} (h : c.rest.head? ≠ some ch) :
    (char ch).run c = .mismatch (.of c.offset [Text.quotedChar ch] c.found) c := by
  refine run_satisfy_of_not ?_
  cases hHead : c.rest.head? with
  | none => rfl
  | some other =>
    rw [hHead] at h
    simpa using h

theorem refuses_char {ch : Char} (h : c.rest.head? ≠ some ch) : Refuses (char ch) c :=
  ⟨_, run_char_of_ne h⟩

theorem run_notFollowedBy {p : Char → Bool} (h : c.rest.head?.any p = false) :
    (notFollowedBy p).run c = .ok () c := by
  obtain ⟨offset, rest⟩ := c
  cases rest with
  | nil => rfl
  | cons ch rest =>
    simp only [List.head?_cons, Option.any_some] at h
    simp [notFollowedBy, h]

/-- A rule for one character of a class. -/
structure IsClass (r : Rule Char) (p : Char → Bool) : Prop where
  run : ∀ {offset ch rest}, p ch = true → r.run ⟨offset, ch :: rest⟩ = .ok ch ⟨offset + 1, rest⟩
  refuses : ∀ {c}, c.rest.head?.any p = false → Refuses r c

theorem isClass_satisfy (p : Char → Bool) (expected : List String) :
    IsClass (satisfy p expected) p :=
  ⟨run_satisfy, refuses_satisfy⟩

/-- A choice between classes is their union. -/
theorem isClass_choice (rs : List (Rule Char × (Char → Bool))) (h : ∀ x ∈ rs, IsClass x.1 x.2) :
    IsClass (choice (rs.map Prod.fst)) fun ch => rs.any fun x => x.2 ch := by
  refine ⟨?_, ?_⟩
  · intro offset ch rest hAny
    induction rs with
    | nil => simp at hAny
    | cons x rs ih =>
      obtain ⟨hx, hrs⟩ := List.forall_mem_cons.mp h
      by_cases hp : x.2 ch = true
      · exact run_choice_of_ok (hx.run hp)
      · refine (run_choice_of_refuses (hx.refuses ?_)).mpr (ih hrs ?_)
        · simpa using hp
        · simpa [hp] using hAny
  · intro c hNone
    refine refuses_choice ?_
    intro r hr
    obtain ⟨x, hx, rfl⟩ := List.mem_map.mp hr
    refine (h x hx).refuses ?_
    cases hHead : c.rest.head? with
    | none => rfl
    | some ch =>
      simp only [hHead, Option.any_some, List.any_eq_false] at hNone
      simpa using hNone x hx

/-! ## Words -/

theorem advance_append (text rest : List Char) (offset : Nat) :
    advance text ⟨offset, text ++ rest⟩ = (⟨offset + text.length, rest⟩, true) := by
  induction text generalizing offset with
  | nil => rfl
  | cons ch text ih =>
    simp only [List.cons_append, advance, if_true, ih, List.length_cons]
    rw [Nat.add_right_comm, Nat.add_assoc]

theorem run_word (offset : Nat) (text : String) (rest : List Char) :
    (word text).run ⟨offset, text.toList ++ rest⟩ = .ok text ⟨offset + text.toList.length, rest⟩ := by
  simp only [word, advance_append]

/-- The word is not ahead. -/
theorem fails_word (text : String) (h : ¬ text.toList <+: c.rest) : Fails (word text) c := by
  obtain ⟨w, hReach, hAll⟩ := advance_reaches text.toList c
  cases hAdvance : advance text.toList c with
  | mk next whole =>
    rw [hAdvance] at hReach hAll
    cases whole with
    | true => exact absurd ⟨next.rest, by rw [hReach.rest, hAll rfl]⟩ h
    | false => exact ⟨_, next, by simp only [word, hAdvance]; rfl⟩

/-! ## Repetition -/

/-- The text that is left bounds the number of rounds, so any longer text does as well. -/
theorem repeated_congr {P : List Char → α → Prop} (hr : r.Reads P) {ahead ahead' : List Char}
    (h : c.rest.length ≤ ahead.length) (h' : c.rest.length ≤ ahead'.length) :
    repeated r ahead c = repeated r ahead' c := by
  induction ahead generalizing ahead' c with
  | nil =>
    -- nothing is left, so that no round moves the cursor
    unfold repeated
    cases hRun : r.run c with
    | mismatch m next => rfl
    | abort e next => rfl
    | ok a next =>
      obtain ⟨w, hReach, -⟩ := hr.of_ok hRun
      have hFinish := hReach.finish
      simp only [List.length_nil, Nat.le_zero] at h
      cases ahead' with
      | nil => rfl
      | cons ch ahead' => simp only [if_neg (show ¬ c.offset < next.offset by omega)]
  | cons ch ahead ih =>
    unfold repeated
    cases hRun : r.run c with
    | mismatch m next => rfl
    | abort e next => rfl
    | ok a next =>
      obtain ⟨w, hReach, -⟩ := hr.of_ok hRun
      have hFinish := hReach.finish
      simp only [List.length_cons] at h
      cases ahead' with
      | nil =>
        simp only [List.length_nil, Nat.le_zero] at h'
        simp only [if_neg (show ¬ c.offset < next.offset by omega)]
      | cons ch' ahead' =>
        simp only [List.length_cons] at h'
        by_cases hLt : c.offset < next.offset
        · simp only [if_pos hLt]
          rw [ih (show next.rest.length ≤ ahead.length by omega)
            (show next.rest.length ≤ ahead'.length by omega)]
        · simp only [if_neg hLt]

theorem run_many_of_ok {P : List Char → α → Prop} (hr : r.Reads P) (hRun : r.run c = .ok a next)
    (hLt : c.offset < next.offset) :
    (many r).run c = ((many r).run next).andThen fun as last => .ok (a :: as) last := by
  obtain ⟨w, hReach, -⟩ := hr.of_ok hRun
  have hFinish := hReach.finish
  show repeated r c.rest c = _
  cases hRest : c.rest with
  | nil =>
    simp only [hRest, List.length_nil] at hFinish
    omega
  | cons ch ahead =>
    simp only [hRest, List.length_cons] at hFinish
    rw [repeated, hRun]
    simp only [if_pos hLt]
    rw [repeated_congr hr (by omega) (Nat.le_refl _)]
    rfl

/-- A round that matches, seen by what follows the repetition. -/
theorem run_many_bind_of_ok {P : List Char → α → Prop} (hr : r.Reads P) (hRun : r.run c = .ok a next)
    (hLt : c.offset < next.offset) (f : List α → Rule β) :
    (many r >>= f).run c = (many r >>= fun as => f (a :: as)).run next := by
  rw [run_bind, run_bind, run_many_of_ok hr hRun hLt]
  cases (many r).run next <;> rfl

theorem run_many_of_refuses (h : Refuses r c) : (many r).run c = .ok [] c := by
  obtain ⟨m, hRun⟩ := h
  show repeated r c.rest c = _
  rw [repeated.eq_def, hRun]
  simp only [if_true]

theorem run_many_of_moved {m : Mismatch} (hRun : r.run c = .mismatch m next)
    (hMoved : next.offset ≠ c.offset) : (many r).run c = .mismatch m next := by
  show repeated r c.rest c = _
  rw [repeated.eq_def, hRun]
  simp only [if_neg hMoved]

theorem run_many_of_abort {e : Error} (hRun : r.run c = .abort e next) :
    (many r).run c = .abort e next := by
  show repeated r c.rest c = _
  rw [repeated.eq_def, hRun]

/-! ## Runs of characters -/

namespace IsClass

variable {r : Rule Char} {p : Char → Bool}

/-- A class is read up to the first character outside it. -/
theorem run_many (h : IsClass r p) (offset : Nat) (text : List Char) :
    (many r).run ⟨offset, text⟩ =
      .ok (text.takeWhile p) ⟨offset + (text.takeWhile p).length, text.dropWhile p⟩ := by
  show repeated r text ⟨offset, text⟩ = _
  induction text generalizing offset with
  | nil => exact run_many_of_refuses (c := ⟨offset, []⟩) (h.refuses rfl)
  | cons ch text ih =>
    by_cases hp : p ch = true
    · rw [repeated, h.run hp]
      simp only [Nat.lt_add_one, if_true, ih, Outcome.andThen, List.takeWhile_cons, hp,
        List.dropWhile_cons, List.length_cons]
      rw [Nat.add_right_comm, Nat.add_assoc]
    · refine (run_many_of_refuses (c := ⟨offset, ch :: text⟩) (h.refuses ?_)).trans ?_
      · simpa using hp
      · simp [hp]

theorem run_many_append (h : IsClass r p) {w rest : List Char} (hw : ∀ ch ∈ w, p ch = true)
    (hRest : rest.head?.any p = false) (offset : Nat) :
    (many r).run ⟨offset, w ++ rest⟩ = .ok w ⟨offset + w.length, rest⟩ := by
  obtain ⟨hTake, hDrop⟩ := Text.cut_iff.mp ⟨rfl, hw, hRest⟩
  rw [h.run_many, hTake, hDrop]

theorem run_many1_append (h : IsClass r p) {w rest : List Char} (hNe : w ≠ [])
    (hw : ∀ ch ∈ w, p ch = true) (hRest : rest.head?.any p = false) (offset : Nat) :
    (many1 r).run ⟨offset, w ++ rest⟩ = .ok w ⟨offset + w.length, rest⟩ := by
  obtain ⟨ch, w, rfl⟩ := List.exists_cons_of_ne_nil hNe
  obtain ⟨hch, hw⟩ := List.forall_mem_cons.mp hw
  rw [many1, List.cons_append, run_bind_of_ok (h.run hch),
    run_bind_of_ok (h.run_many_append hw hRest _), run_pure, List.length_cons, Nat.add_right_comm,
    Nat.add_assoc]

end IsClass

end Rule

end MiniScheme
