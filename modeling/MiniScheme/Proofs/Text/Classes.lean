import Mathlib.Data.List.TakeWhile
import MiniScheme.Grammar.Token

/-!
# The classes of characters are disjoint

Reading tells the end of a token by the class of the next character (`cut_iff`). That works because a blank is
never part of a token: no blank is a letter, a digit, a sign or an alphanumeric character.

The tables are compared range by range. `Apart` says that every range of one table ends before every range
of the other begins, or the other way round; it is decidable, so two tables are compared by evaluation.
-/

namespace MiniScheme.Text

/-- A fact about the characters of a list is evaluated for one after the other. -/
theorem forall_mem_of_all {p : Char → Prop} [DecidablePred p] {chars : List Char}
    (h : chars.all (fun ch => decide (p ch)) = true) : ∀ ch ∈ chars, p ch := by
  simpa using h

/-! ## Runs of a class -/

/-- A text is cut where the characters of a class end. -/
theorem cut_iff {p : Char → Bool} {cs w rest : List Char} :
    cs = w ++ rest ∧ (∀ ch ∈ w, p ch = true) ∧ rest.head?.any p = false ↔
      cs.takeWhile p = w ∧ cs.dropWhile p = rest := by
  constructor
  · rintro ⟨rfl, hw, hRest⟩
    rw [List.takeWhile_append_of_pos hw, List.dropWhile_append_of_pos hw]
    cases rest with
    | nil => simp
    | cons ch rest =>
      simp only [List.head?_cons, Option.any_some] at hRest
      simp [hRest]
  · rintro ⟨rfl, rfl⟩
    refine ⟨List.takeWhile_append_dropWhile.symm, fun ch hch => List.mem_takeWhile_imp hch, ?_⟩
    have hHead := List.head?_dropWhile_not p cs
    cases hRest : (cs.dropWhile p).head? with
    | none => rfl
    | some ch => simpa [hRest] using hHead

/-- Runs of a class that are as long as they can be are equal if they start the same text. -/
theorem append_inj_of_class {p : Char → Bool} {w w' r r' : List Char}
    (hw : ∀ ch ∈ w, p ch = true) (hw' : ∀ ch ∈ w', p ch = true) (hr : r.head?.any p = false)
    (hr' : r'.head?.any p = false) (h : w ++ r = w' ++ r') : w = w' ∧ r = r' := by
  obtain ⟨hTake, hDrop⟩ := cut_iff.mp ⟨rfl, hw, hr⟩
  obtain ⟨hTake', hDrop'⟩ := cut_iff.mp ⟨h, hw', hr'⟩
  exact ⟨hTake.symm.trans hTake', hDrop.symm.trans hDrop'⟩

/-! ## Tables without a common code point -/

/-- No range of one table meets a range of the other. -/
def CodePoints.Apart (a b : CodePoints) : Prop :=
  ∀ x ∈ a.ranges, ∀ y ∈ b.ranges, x.2 < y.1 ∨ y.2 < x.1

instance (a b : CodePoints) : Decidable (a.Apart b) :=
  inferInstanceAs (Decidable (∀ x ∈ a.ranges, ∀ y ∈ b.ranges, x.2 < y.1 ∨ y.2 < x.1))

theorem CodePoints.Apart.not_contains {a b : CodePoints} (hApart : a.Apart b) {ch : Char}
    (ha : a.contains ch = true) : b.contains ch = false := by
  rw [Bool.eq_false_iff]
  intro hb
  obtain ⟨x, hx, hLow, hHigh⟩ := CodePoints.exists_range_of_holds ha
  obtain ⟨y, hy, hLow', hHigh'⟩ := CodePoints.exists_range_of_holds hb
  have := hApart x hx y hy
  omega

/-- The visible ASCII characters: digits, signs, punctuation and the ASCII letters. -/
def visibles : CodePoints := ⟨[(0x21, 0x7e)]⟩

theorem blanks_apart_letters : blanks.Apart letters := by decide +kernel

theorem blanks_apart_numericSigns : blanks.Apart numericSigns := by decide +kernel

theorem blanks_apart_visibles : blanks.Apart visibles := by decide

/-- The decimal digits. -/
def digits : CodePoints := ⟨[(0x30, 0x39)]⟩

theorem digits_apart_letters : digits.Apart letters := by decide +kernel

theorem toNat_of_isDigit {ch : Char} (h : ch.isDigit = true) : 0x30 ≤ ch.toNat ∧ ch.toNat ≤ 0x39 := by
  simp only [Char.isDigit, Bool.and_eq_true, decide_eq_true_eq, ge_iff_le,
    UInt32.le_iff_toNat_le] at h
  exact h

theorem isLetter_of_isDigit {ch : Char} (h : ch.isDigit = true) : isLetter ch = false := by
  obtain ⟨hLow, hHigh⟩ := toNat_of_isDigit h
  refine digits_apart_letters.not_contains ?_
  simp only [CodePoints.contains, digits, CodePoints.holds]
  rw [if_neg (by omega), if_pos hHigh]

/-! ## Blanks -/

theorem isLetter_of_isBlank {ch : Char} (h : isBlank ch = true) : isLetter ch = false :=
  blanks_apart_letters.not_contains h

theorem isAlphanumeric_of_isBlank {ch : Char} (h : isBlank ch = true) :
    isAlphanumeric ch = false := by
  rw [isAlphanumeric, isLetter_of_isBlank h, Bool.false_or]
  exact blanks_apart_numericSigns.not_contains h

/-- A blank is none of the visible ASCII characters. -/
theorem not_visible_of_isBlank {ch : Char} (h : isBlank ch = true) :
    ¬ (0x21 ≤ ch.toNat ∧ ch.toNat ≤ 0x7e) := by
  have hNot := blanks_apart_visibles.not_contains h
  simp only [CodePoints.contains, visibles, CodePoints.holds] at hNot
  rintro ⟨hLow, hHigh⟩
  rw [if_neg (by omega), if_pos hHigh] at hNot
  cases hNot

theorem isDigit_of_isBlank {ch : Char} (h : isBlank ch = true) : ch.isDigit = false := by
  rw [Bool.eq_false_iff]
  intro hDigit
  obtain ⟨hLow, hHigh⟩ := toNat_of_isDigit hDigit
  exact not_visible_of_isBlank h ⟨by omega, by omega⟩

end MiniScheme.Text

namespace MiniScheme.Grammar

theorem visible_of_mem_signs : ∀ ch ∈ signs, 0x21 ≤ ch.toNat ∧ ch.toNat ≤ 0x7e :=
  Text.forall_mem_of_all (by decide)

theorem not_mem_signs_of_isBlank {ch : Char} (h : Text.isBlank ch = true) : ch ∉ signs :=
  fun hMem => Text.not_visible_of_isBlank h (visible_of_mem_signs ch hMem)

theorem not_mem_signs_of_isDigit {ch : Char} (h : ch.isDigit = true) : ch ∉ signs := by
  have hNoDigit : ∀ ch ∈ signs, ch.isDigit = false := Text.forall_mem_of_all (by decide)
  intro hMem
  rw [hNoDigit ch hMem] at h
  cases h

end MiniScheme.Grammar
