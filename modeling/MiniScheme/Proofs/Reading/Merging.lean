import MiniScheme.Reading.Mismatch

/-!
# How mismatches merge

The further of two mismatches stands as it is (`merge_of_lt`, `merge_of_gt`). In the same place they are
pooled, and one that has nothing new to say leaves the other as it was (`merge_eq_earlier`). Of three
mismatches any two neighbours may be merged first (`merge_assoc`).
-/

namespace MiniScheme

/-! ## Dropping repetitions -/

theorem eraseDups_of_nodup {texts : List String} (h : texts.Nodup) : texts.eraseDups = texts := by
  induction texts with
  | nil => simp
  | cons text texts ih =>
    obtain ⟨hNotMem, hNodup⟩ := List.nodup_cons.mp h
    have hFilter : (texts.filter fun other => !other == text) = texts := by
      rw [List.filter_eq_self]
      intro other hMem
      simp only [Bool.not_eq_true', beq_eq_false_iff_ne]
      rintro rfl
      exact hNotMem hMem
    rw [List.eraseDups_cons, hFilter, ih hNodup]

theorem eraseDups_filter (p : String → Bool) :
    ∀ texts : List String, (texts.filter p).eraseDups = texts.eraseDups.filter p
  | [] => by simp
  | text :: texts => by
    have ih := eraseDups_filter p (texts.filter fun other => !other == text)
    rw [List.eraseDups_cons, List.filter_cons, List.filter_cons, ← ih, List.filter_filter]
    by_cases hp : p text = true
    · rw [if_pos hp, if_pos hp, List.eraseDups_cons, List.filter_filter]
      simp only [Bool.and_comm]
    · rw [if_neg hp, if_neg hp]
      -- what `p` admits is not `text`
      congr 1
      refine List.filter_congr fun other _ => ?_
      cases hOther : p other with
      | false => simp
      | true =>
        have hNe : other ≠ text := by
          rintro rfl
          exact hp hOther
        simp [hNe]
termination_by texts => texts.length
decreasing_by
  have := List.length_filter_le (fun other => !other == text) texts
  simp only [List.length_cons]
  omega

/-- Repetitions may be dropped before or after two lists are joined. -/
theorem eraseDups_append_eraseDups (texts more : List String) :
    (texts.eraseDups ++ more.eraseDups).eraseDups = (texts ++ more).eraseDups := by
  have hSame : more.eraseDups.removeAll texts.eraseDups = (more.removeAll texts).eraseDups := by
    rw [List.removeAll, List.removeAll, eraseDups_filter]
    refine List.filter_congr fun text _ => ?_
    simp [List.mem_eraseDups]
  rw [List.eraseDups_append, List.eraseDups_append, hSame, eraseDups_of_nodup (nodup_eraseDups _),
    eraseDups_of_nodup (nodup_eraseDups _)]

theorem eraseDups_append_left (texts more : List String) :
    (texts.eraseDups ++ more).eraseDups = (texts ++ more).eraseDups := by
  rw [← eraseDups_append_eraseDups texts.eraseDups, eraseDups_of_nodup (nodup_eraseDups texts),
    eraseDups_append_eraseDups]

theorem eraseDups_append_right (texts more : List String) :
    (texts ++ more.eraseDups).eraseDups = (texts ++ more).eraseDups := by
  rw [← eraseDups_append_eraseDups texts more.eraseDups, eraseDups_of_nodup (nodup_eraseDups more),
    eraseDups_append_eraseDups]

/-- What is there already adds nothing at the end. -/
theorem eraseDups_append_of_subset {texts more : List String} (h : ∀ text ∈ more, text ∈ texts) :
    (texts ++ more).eraseDups = texts.eraseDups := by
  have hNone : more.removeAll texts = [] := by
    rw [List.removeAll, List.filter_eq_nil_iff]
    intro text hMem
    simpa using h text hMem
  rw [List.eraseDups_append, hNone, List.eraseDups_nil, List.append_nil]

namespace Mismatch

variable {later earlier : Mismatch}

/-! ## The further one stands -/

theorem merge_of_lt (h : earlier.position < later.position) : later.merge earlier = later := by
  rw [merge, if_pos h]

theorem merge_of_gt (h : later.position < earlier.position) : later.merge earlier = earlier := by
  rw [merge, if_neg (by omega), if_pos h]

theorem merge_of_eq (h : later.position = earlier.position) :
    later.merge earlier = .of later.position (earlier.expected ++ later.expected)
      ((nonempty later.unexpected).or earlier.unexpected) := by
  rw [merge, if_neg (by omega), if_neg (by omega)]

/-- Two mismatches in one place that have found the same. -/
theorem of_merge_of {text : String} (hText : text ≠ "") (position : Nat) (expected more : List String) :
    (Mismatch.of position more (some text)).merge (.of position expected (some text)) =
      .of position (expected ++ more) (some text) := by
  have hFound : (nonempty (some text)).or (some text) = some text := by
    simp [nonempty, Option.filter, hText]
  have hPosition : (of position more (some text)).position =
      (of position expected (some text)).position := rfl
  rw [merge_of_eq hPosition]
  simp only [of, eraseDups_append_eraseDups, hFound]

theorem position_merge (later earlier : Mismatch) :
    (later.merge earlier).position = max later.position earlier.position := by
  rcases Nat.lt_trichotomy later.position earlier.position with h | h | h
  · rw [merge_of_gt h]
    omega
  · rw [merge_of_eq h, of]
    simp only [h, Nat.max_self]
  · rw [merge_of_lt h]
    omega

/-! ## Nothing new to say -/

/-- A mismatch in the same place that expects nothing else and has found the same. -/
theorem merge_eq_earlier (hPosition : later.position = earlier.position)
    (hExpected : ∀ text ∈ later.expected, text ∈ earlier.expected)
    (hFound : later.unexpected = earlier.unexpected) : later.merge earlier = earlier := by
  rw [merge_of_eq hPosition]
  apply Mismatch.ext
  · exact hPosition
  · exact (eraseDups_append_of_subset hExpected).trans (eraseDups_of_nodup earlier.nodup)
  · show (nonempty later.unexpected).or earlier.unexpected = earlier.unexpected
    rw [hFound]
    cases earlier.unexpected with
    | none => rfl
    | some text =>
      by_cases hEmpty : text = ""
      · simp [nonempty, Option.filter, hEmpty]
      · simp [nonempty, Option.filter, hEmpty]

theorem merge_self (m : Mismatch) : m.merge m = m :=
  merge_eq_earlier rfl (fun _ hMem => hMem) rfl

/-! ## Three of them -/

theorem nonempty_or_or (a b c : Option String) :
    (nonempty ((nonempty a).or b)).or c = (nonempty a).or ((nonempty b).or c) := by
  cases hFound : nonempty a with
  | none => rfl
  | some text =>
    have hText : nonempty (some text) = some text := by
      obtain ⟨-, hNe⟩ := Option.filter_eq_some_iff.mp hFound
      exact Option.filter_eq_some_iff.mpr ⟨rfl, hNe⟩
    rw [Option.some_or, Option.some_or, hText, Option.some_or]

theorem merge_assoc (a b c : Mismatch) : (a.merge b).merge c = a.merge (b.merge c) := by
  have hFirst := position_merge b c
  have hLast := position_merge a b
  rcases Nat.lt_trichotomy a.position b.position with hab | hab | hab
  · have hBehind : a.position < (b.merge c).position := by omega
    rw [merge_of_gt hab, merge_of_gt hBehind]
  · rcases Nat.lt_trichotomy b.position c.position with hbc | hbc | hbc
    · rw [merge_of_gt hbc, merge_of_gt (by omega), merge_of_gt (by omega)]
    · have hLevel : (a.merge b).position = c.position := by omega
      have hLevel' : a.position = (b.merge c).position := by omega
      rw [merge_of_eq hLevel, merge_of_eq hLevel', merge_of_eq hab, merge_of_eq hbc]
      simp only [of, eraseDups_append_left, eraseDups_append_right, List.append_assoc, nonempty_or_or]
    · rw [merge_of_lt hbc, merge_of_lt (by omega)]
  · rw [merge_of_lt hab]
    rcases Nat.lt_trichotomy b.position c.position with hbc | hbc | hbc
    · rw [merge_of_gt hbc]
    · have hBehind : (b.merge c).position < a.position := by omega
      rw [merge_of_lt hBehind, merge_of_lt (by omega)]
    · rw [merge_of_lt hbc, merge_of_lt hab, merge_of_lt (by omega)]

end Mismatch

end MiniScheme
