import MiniScheme.Proofs.Reading.Run

/-!
# Rules do not depend on where they start

A cursor holds what lies ahead and counts what lies behind. A rule that is `Uniform` does not make use of the
count: started `k` characters further on with the same text ahead, it has the same outcome with all offsets
`k` higher. In a text `before ++ text` that is what it does after `before` if it does it at the start of `text`
(`Uniform.run_inside`).
-/

namespace MiniScheme

/-! ## Offsets that are moved -/

/-- The same text ahead, `k` characters further on. -/
def Cursor.shift (k : Nat) (c : Cursor) : Cursor :=
  ⟨c.offset + k, c.rest⟩

/-- The same mismatch, `k` characters further on. -/
def Mismatch.shift (k : Nat) (m : Mismatch) : Mismatch :=
  { m with position := m.position + k }

/-- The same outcome, `k` characters further on. -/
def Outcome.shift {α : Type} (k : Nat) : Outcome α → Outcome α
  | .ok a next => .ok a (next.shift k)
  | .mismatch m next => .mismatch (m.shift k) (next.shift k)
  | .abort e next => .abort e (next.shift k)

theorem Outcome.next_shift {α : Type} (k : Nat) (o : Outcome α) : (o.shift k).next = o.next.shift k := by
  cases o <;> rfl

/-- The cursor at an offset of a text. -/
def Cursor.inside (source : List Char) (offset : Nat) : Cursor :=
  ⟨offset, source.drop offset⟩

theorem Cursor.shift_inside (before text : List Char) (offset : Nat) :
    (Cursor.inside text offset).shift before.length =
      .inside (before ++ text) (offset + before.length) := by
  rw [inside, inside, Nat.add_comm, List.drop_length_add_append, Nat.add_comm]
  rfl

theorem Cursor.Reaches.eq_inside {text w : List Char} {next : Cursor}
    (h : (Cursor.inside text 0).Reaches w next) : next = .inside text next.offset := by
  obtain ⟨offset, rest⟩ := next
  have hOffset : offset = w.length := h.offset.trans (Nat.zero_add _)
  have hRest : text = w ++ rest := h.rest
  rw [inside, hOffset, hRest, List.drop_left]

theorem Cursor.offset_shift_eq_iff {c next : Cursor} {k : Nat} :
    (next.shift k).offset = (c.shift k).offset ↔ next.offset = c.offset := by
  simp only [Cursor.shift]
  omega

theorem Cursor.offset_shift_lt_iff {c next : Cursor} {k : Nat} :
    (c.shift k).offset < (next.shift k).offset ↔ c.offset < next.offset := by
  simp only [Cursor.shift]
  omega

theorem Mismatch.shift_merge (k : Nat) (later earlier : Mismatch) :
    (later.shift k).merge (earlier.shift k) = (later.merge earlier).shift k := by
  rcases Nat.lt_trichotomy later.position earlier.position with h | h | h
  · rw [merge_of_gt h, merge_of_gt (Nat.add_lt_add_right h k)]
  · rw [merge_of_eq h, merge_of_eq (congrArg (· + k) h)]
    rfl
  · rw [merge_of_lt h, merge_of_lt (Nat.add_lt_add_right h k)]

theorem Mismatch.shift_mergeOption (k : Nat) (later : Mismatch) (earlier : Option Mismatch) :
    (later.shift k).mergeOption (earlier.map (shift k)) = (later.mergeOption earlier).shift k := by
  cases earlier with
  | none => rfl
  | some earlier => exact shift_merge k later earlier

namespace Rule

variable {α β : Type} {r : Rule α}

/-- The rule does the same wherever it starts. -/
def Uniform (r : Rule α) : Prop :=
  ∀ k c, r.run (c.shift k) = (r.run c).shift k

/-- In a longer text a uniform rule does after `before` what it does at the start of `text`. -/
theorem Uniform.run_inside (hr : Uniform r) (before text : List Char) :
    r.run (.inside (before ++ text) before.length) = (r.run (.inside text 0)).shift before.length := by
  rw [← hr before.length, Cursor.shift_inside, Nat.zero_add]

/-! ## Sequences -/

theorem uniform_pure (a : α) : Uniform (pure a) :=
  fun _ _ => rfl

theorem uniform_abort (e : Error) : Uniform (abort e : Rule α) :=
  fun _ _ => rfl

theorem uniform_ofExcept (x : Except Error α) : Uniform (ofExcept x) := by
  intro k c
  cases x <;> rfl

theorem Uniform.bind {f : α → Rule β} (hr : Uniform r) (hf : ∀ a, Uniform (f a)) :
    Uniform (r >>= f) := by
  intro k c
  rw [run_bind, run_bind, hr k c]
  cases r.run c with
  | ok a next => exact hf a k next
  | mismatch m next => rfl
  | abort e next => rfl

theorem Uniform.map (hr : Uniform r) (f : α → β) : Uniform (f <$> r) :=
  hr.bind fun a => uniform_pure (f a)

theorem Uniform.discard (hr : Uniform r) : Uniform (discard r) :=
  hr.map fun _ => ()

/-! ## Characters and words -/

theorem uniform_satisfy (p : Char → Bool) (expected : List String) : Uniform (satisfy p expected) := by
  rintro k ⟨offset, rest⟩
  cases rest with
  | nil => rfl
  | cons ch rest =>
    by_cases hp : p ch = true
    · rw [Cursor.shift, run_satisfy hp, run_satisfy hp, Outcome.shift, Cursor.shift, Nat.add_right_comm]
    · have hNot : (ch :: rest).head?.any p = false := by
        simpa using hp
      rw [run_satisfy_of_not (c := ⟨offset, ch :: rest⟩) hNot, run_satisfy_of_not hNot]
      rfl

theorem uniform_char (ch : Char) : Uniform (char ch) :=
  uniform_satisfy _ _

theorem uniform_oneOf (chars : List Char) (expected : List String) : Uniform (oneOf chars expected) :=
  uniform_satisfy _ _

theorem uniform_notFollowedBy (p : Char → Bool) : Uniform (notFollowedBy p) := by
  rintro k ⟨offset, rest⟩
  cases rest with
  | nil => rfl
  | cons ch rest =>
    unfold notFollowedBy Cursor.shift
    dsimp only
    split <;> rfl

theorem advance_shift (word : List Char) (k : Nat) (c : Cursor) :
    advance word (c.shift k) = ((advance word c).1.shift k, (advance word c).2) := by
  induction word generalizing c with
  | nil => rfl
  | cons ch word ih =>
    obtain ⟨offset, rest⟩ := c
    cases rest with
    | nil => rfl
    | cons head rest =>
      unfold advance Cursor.shift
      dsimp only
      split
      · rw [Nat.add_right_comm]
        exact ih ⟨offset + 1, rest⟩
      · rfl

theorem uniform_word (text : String) : Uniform (word text) := by
  intro k c
  simp only [word, advance_shift]
  generalize advance text.toList c = reached
  obtain ⟨next, whole⟩ := reached
  cases whole <;> rfl

/-! ## Alternatives -/

theorem Uniform.attempt (hr : Uniform r) : Uniform (attempt r) := by
  intro k c
  unfold Rule.attempt
  dsimp only
  rw [hr k c]
  cases r.run c <;> rfl

theorem uniform_choice {rs : List (Rule α)} (h : ∀ r ∈ rs, Uniform r) : Uniform (choice rs) := by
  intro k c
  have hFrom : ∀ seen, choiceFrom (c.shift k) (seen.map (Mismatch.shift k)) rs =
      (choiceFrom c seen rs).shift k := by
    induction rs with
    | nil =>
      intro seen
      cases seen <;> rfl
    | cons r rs ih =>
      obtain ⟨hr, hrs⟩ := List.forall_mem_cons.mp h
      intro seen
      rw [choiceFrom, choiceFrom, hr k c]
      cases r.run c with
      | ok a next => rfl
      | abort e next => rfl
      | mismatch m next =>
        simp only [Outcome.shift, Cursor.offset_shift_eq_iff, Mismatch.shift_mergeOption]
        split
        · exact ih hrs (some (m.mergeOption seen))
        · rfl
  exact hFrom none

theorem Uniform.optional (hr : Uniform r) : Uniform (optional r) := by
  intro k c
  unfold Rule.optional
  dsimp only
  rw [hr k c]
  cases r.run c with
  | ok a next => rfl
  | abort e next => rfl
  | mismatch m next =>
    simp only [Outcome.shift, Cursor.offset_shift_eq_iff]
    split <;> rfl

/-! ## Repetition -/

theorem Uniform.repeated (hr : Uniform r) (k : Nat) (ahead : List Char) (c : Cursor) :
    repeated r ahead (c.shift k) = (repeated r ahead c).shift k := by
  induction ahead generalizing c with
  | nil =>
    rw [Rule.repeated, Rule.repeated, hr k c]
    cases r.run c with
    | ok a next => rfl
    | abort e next => rfl
    | mismatch m next =>
      simp only [Outcome.shift, Cursor.offset_shift_eq_iff]
      split <;> rfl
  | cons ch ahead ih =>
    rw [Rule.repeated, Rule.repeated, hr k c]
    cases r.run c with
    | abort e next => rfl
    | mismatch m next =>
      simp only [Outcome.shift, Cursor.offset_shift_eq_iff]
      split <;> rfl
    | ok a next =>
      simp only [Outcome.shift, Cursor.offset_shift_lt_iff, ih]
      split
      · cases Rule.repeated r ahead next <;> rfl
      · rfl

theorem Uniform.many (hr : Uniform r) : Uniform (many r) :=
  fun k c => hr.repeated k c.rest c

theorem Uniform.many1 (hr : Uniform r) : Uniform (many1 r) :=
  hr.bind fun _ => hr.many.bind fun _ => uniform_pure _

theorem Uniform.sepBy {sep : Rule β} (hr : Uniform r) (hs : Uniform sep) : Uniform (sepBy r sep) := by
  refine hr.optional.bind fun first => ?_
  cases first with
  | none => exact uniform_pure _
  | some a => exact (hs.discard.bind fun _ => hr).many.bind fun _ => uniform_pure _

theorem Uniform.endBy {sep : Rule β} (hr : Uniform r) (hs : Uniform sep) : Uniform (endBy r sep) :=
  (hr.bind fun _ => hs.discard.bind fun _ => uniform_pure _).many

end Rule

end MiniScheme
