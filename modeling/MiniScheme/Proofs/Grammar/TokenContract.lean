import Mathlib.Data.List.Basic
import Mathlib.Data.List.Induction
import Mathlib.Tactic.IntervalCases
import MiniScheme.Proofs.Grammar.Denotes
import MiniScheme.Proofs.Reading.Postcondition

/-!
# What the rules for tokens read

Symbols, strings, integers, booleans and characters are read from texts that stand for them: the rules
meet the contract `Reads` with the relation `Token`. The tables of escapes and of character names have an
entry wherever they are looked up, so none of these rules aborts.

Fractions, ratios and complex numbers are in no such relation. Of them it is enough to know that they start
with a numeral (`StartsNumeral`).
-/

namespace MiniScheme.Grammar

open Rule

/-! ## Runs of characters -/

/-- Single characters of a class, one after the other. -/
theorem concat_chars {p : Char → Prop} {w as : List Char}
    (h : Concat (fun w ch => w = [ch] ∧ p ch) w as) : w = as ∧ ∀ ch ∈ as, p ch := by
  induction h with
  | nil => exact ⟨rfl, by simp⟩
  | cons hChar _ ih =>
    obtain ⟨rfl, hp⟩ := hChar
    obtain ⟨rfl, hAll⟩ := ih
    refine ⟨rfl, ?_⟩
    rintro ch (_ | ⟨_, hMem⟩)
    · exact hp
    · exact hAll ch hMem

theorem reads_many1_satisfy (p : Char → Bool) (expected : List String) :
    (many1 (satisfy p expected)).Reads fun w as => w = as ∧ as ≠ [] ∧ ∀ ch ∈ as, p ch = true := by
  refine (reads_many1 (reads_satisfy p expected)).mono ?_
  rintro w as ⟨hNe, hConcat⟩
  obtain ⟨rfl, hAll⟩ := concat_chars hConcat
  exact ⟨rfl, hNe, hAll⟩

theorem reads_blanks : blanks.Reads fun w _ => IsBlanks w := by
  refine reads_discard ((reads_many1_satisfy Text.isBlank _).mono ?_)
  rintro w as ⟨rfl, hNe, hAll⟩
  exact ⟨hNe, hAll⟩

/-! ## Symbols and strings -/

theorem reads_letter : letter.Reads fun w ch => w = [ch] ∧ Text.isLetter ch = true :=
  reads_satisfy _ _

theorem reads_digit : digit.Reads fun w ch => w = [ch] ∧ ch.isDigit = true :=
  reads_satisfy _ _

theorem reads_sign : sign.Reads fun w ch => w = [ch] ∧ signs.contains ch = true :=
  reads_satisfy _ _

theorem reads_symbol : symbol.Reads Token := by
  have hFirst : (choice [letter, sign]).Reads fun w ch => w = [ch] ∧ isInitial ch = true := by
    refine reads_choice ?_
    simp only [List.forall_mem_cons, List.not_mem_nil, false_imp_iff, implies_true, and_true]
    refine ⟨reads_letter.mono ?_, reads_sign.mono ?_⟩
    all_goals
      rintro w ch ⟨rfl, hch⟩
      simp only [isInitial, hch, Bool.true_or, Bool.or_true, and_self]
  have hOther : (choice [letter, digit, sign]).Reads
      fun w ch => w = [ch] ∧ isSubsequent ch = true := by
    refine reads_choice ?_
    simp only [List.forall_mem_cons, List.not_mem_nil, false_imp_iff, implies_true, and_true]
    refine ⟨reads_letter.mono ?_, reads_digit.mono ?_, reads_sign.mono ?_⟩
    all_goals
      rintro w ch ⟨rfl, hch⟩
      simp only [isSubsequent, hch, Bool.true_or, Bool.or_true, and_self]
  refine reads_bind hFirst ?_
  rintro u first ⟨rfl, hInitial⟩
  refine reads_bind (reads_many hOther) fun w others hConcat => reads_pure ?_
  obtain ⟨rfl, hAll⟩ := concat_chars hConcat
  rw [List.append_nil]
  exact .symbol ⟨hInitial, hAll⟩

/-- Every letter that may follow a backslash has its entry. -/
theorem entry_escapes {letter : Char} (h : letter ∈ escapes.map Prod.fst) :
    ∃ ch, entry escapes letter = .ok ch ∧ Escape letter ch := by
  simp only [escapes, List.map_cons, List.map_nil, List.mem_cons, List.not_mem_nil, or_false] at h
  rcases h with rfl | rfl | rfl | rfl | rfl
  · exact ⟨_, rfl, .backslash⟩
  · exact ⟨_, rfl, .quote⟩
  · exact ⟨_, rfl, .newline⟩
  · exact ⟨_, rfl, .return⟩
  · exact ⟨_, rfl, .tab⟩

theorem reads_escapedChar :
    escapedChar.Reads fun w ch => ∃ letter, w = ['\\', letter] ∧ Escape letter ch := by
  refine reads_bind (reads_discard (reads_char '\\')) ?_
  rintro u _ rfl
  refine reads_bind (reads_oneOf _ _) ?_
  rintro u letter ⟨rfl, hMem⟩
  obtain ⟨ch, hEntry, hEscape⟩ := entry_escapes hMem
  exact reads_ofExcept hEntry ⟨letter, rfl, hEscape⟩

/-- Escapes and plain characters, one after the other. -/
theorem stringBody_of_concat {w s : List Char}
    (h : Concat (fun w ch => (∃ letter, w = ['\\', letter] ∧ Escape letter ch) ∨
      (w = [ch] ∧ ch ∉ ['"', '\\'])) w s) : StringBody w s := by
  induction h with
  | nil => exact .nil
  | cons hChar _ ih =>
    rcases hChar with ⟨letter, rfl, hEscape⟩ | ⟨rfl, hPlain⟩
    · exact .escape hEscape ih
    · simp only [List.mem_cons, List.not_mem_nil, or_false, not_or] at hPlain
      exact .plain hPlain.1 hPlain.2 ih

theorem reads_stringChar : (choice [escapedChar, noneOf ['"', '\\']]).Reads fun w ch =>
    (∃ letter, w = ['\\', letter] ∧ Escape letter ch) ∨ (w = [ch] ∧ ch ∉ ['"', '\\']) := by
  refine reads_choice ?_
  simp only [List.forall_mem_cons, List.not_mem_nil, false_imp_iff, implies_true, and_true]
  exact ⟨reads_escapedChar.mono fun _ _ h => .inl h, (reads_noneOf _).mono fun _ _ h => .inr h⟩

theorem reads_string : string.Reads Token := by
  refine reads_bind (reads_discard (reads_char '"')) ?_
  rintro u _ rfl
  refine reads_bind (reads_many reads_stringChar) fun w body hConcat => ?_
  refine reads_bind (reads_discard (reads_char '"')) ?_
  rintro v _ rfl
  refine reads_pure ?_
  have hToken := Token.string (stringBody_of_concat hConcat)
  simpa using hToken

/-! ## Numbers -/

/-- The digits of every base are among those of base sixteen. -/
theorem isHexDigit_of_mem_radices {radix : Radix} (hRadix : radix ∈ radices) {d : Char}
    (hd : radix.isDigit d = true) : Numeral.isHexDigit d = true := by
  simp only [radices, List.mem_cons, List.not_mem_nil, or_false] at hRadix
  rcases hRadix with rfl | rfl | rfl | rfl | rfl
  · simp only at hd
    simp [Numeral.isHexDigit, hd]
  · simp only at hd
    simp [Numeral.isHexDigit, hd]
  · exact hd
  · simp only [Numeral.isOctalDigit, Bool.and_eq_true, decide_eq_true_eq] at hd
    have hDigit : d.isDigit = true := by
      simp only [Char.isDigit, Bool.and_eq_true, decide_eq_true_eq]
      exact ⟨hd.1, UInt32.le_trans hd.2 (by decide)⟩
    simp [Numeral.isHexDigit, hDigit]
  · simp only [Numeral.isBinaryDigit, Bool.or_eq_true, beq_iff_eq] at hd
    rcases hd with rfl | rfl
    · decide
    · decide

theorem mem_of_isHexDigit {d : Char} (h : Numeral.isHexDigit d = true) :
    d ∈ "0123456789abcdefABCDEF".toList := by
  have hRange : (48 ≤ d.toNat ∧ d.toNat ≤ 57) ∨ (97 ≤ d.toNat ∧ d.toNat ≤ 102) ∨
      (65 ≤ d.toNat ∧ d.toNat ≤ 70) := by
    simp only [Numeral.isHexDigit, Bool.or_eq_true, Bool.and_eq_true, decide_eq_true_eq] at h
    rcases h with (h | h) | h
    · exact .inl (Text.toNat_of_isDigit h)
    · exact .inr (.inl h)
    · exact .inr (.inr h)
  rw [← Char.ofNat_toNat d]
  generalize d.toNat = n at hRange
  rcases hRange with h | h | h
  all_goals
    obtain ⟨hLow, hHigh⟩ := h
    interval_cases n <;> decide

theorem digitValue_eq_idxOf {d : Char} (h : Numeral.isHexDigit d = true) :
    Numeral.digitValue d = orderedDigits.idxOf d.toLower := by
  have hAll : ∀ d ∈ "0123456789abcdefABCDEF".toList,
      Numeral.digitValue d = orderedDigits.idxOf d.toLower :=
    Text.forall_mem_of_all (by decide)
  exact hAll d (mem_of_isHexDigit h)

theorem positional_concat (base : Nat) (digits : List Char) (d : Char) :
    positional base (digits ++ [d]) = base * positional base digits + orderedDigits.idxOf d.toLower := by
  simp only [positional, List.reverse_append, List.reverse_singleton, List.singleton_append,
    List.map_cons, Nat.ofDigits_cons]
  exact Nat.add_comm _ _

/-- Both evaluations of digits agree: one digit after the other, and each digit by its position. -/
theorem value_eq_positional {base : Nat} {digits : List Char}
    (h : ∀ d ∈ digits, Numeral.isHexDigit d = true) :
    Numeral.value base digits = positional base digits := by
  induction digits using List.reverseRecOn with
  | nil => rfl
  | append_singleton digits d ih =>
    rw [Numeral.value_concat, ih fun d hd => h d (List.mem_append_left _ hd),
      digitValue_eq_idxOf (h d (by simp)), positional_concat]

theorem value_of_mem_radices {radix : Radix} (hRadix : radix ∈ radices) {base : Nat} {digits : List Char}
    (h : ∀ d ∈ digits, radix.isDigit d = true) : Numeral.value base digits = positional base digits :=
  value_eq_positional fun d hd => isHexDigit_of_mem_radices hRadix (h d hd)

theorem binaryValue_eq_value {digits : List Char}
    (h : ∀ d ∈ digits, Numeral.isBinaryDigit d = true) :
    Numeral.binaryValue digits = Numeral.value 2 digits := by
  refine List.foldl_ext _ _ _ fun n d hd => ?_
  have hDigit := h d hd
  simp only [Numeral.isBinaryDigit, Bool.or_eq_true, beq_iff_eq] at hDigit
  rcases hDigit with rfl | rfl
  · rfl
  · rfl

theorem reads_decimal : decimal.Reads fun w n => Token w (.number n) := by
  refine reads_map (reads_many1_satisfy Char.isDigit _) ?_
  rintro w as ⟨rfl, hNe, hAll⟩
  have hRadix : ⟨[], Char.isDigit, 10⟩ ∈ radices := by simp [radices]
  rw [value_of_mem_radices hRadix hAll]
  exact Token.number hRadix hNe hAll

/-- A numeral after its mark, one of the ways to write integers. -/
theorem reads_markedNumeral (base : Nat) {mark : String} {p : Char → Bool}
    {expected : List String} {value : List Char → Nat} (hRadix : ⟨mark.toList, p, base⟩ ∈ radices)
    (hValue : ∀ ds, (∀ d ∈ ds, p d = true) → value ds = Numeral.value base ds) :
    (markedNumeral mark (satisfy p expected) value).Reads fun w n => Token w (.number n) := by
  refine reads_bind (reads_discard (reads_attempt ((reads_word mark).mono fun w a h => h.1))) ?_
  rintro u _ rfl
  refine reads_map (reads_many1_satisfy p expected) ?_
  rintro w as ⟨rfl, hNe, hAll⟩
  rw [hValue w hAll, value_of_mem_radices hRadix hAll]
  exact Token.number hRadix hNe hAll

theorem reads_integer : integer.Reads fun w n => Token w (.number n) := by
  refine reads_choice ?_
  simp only [List.forall_mem_cons, List.not_mem_nil, false_imp_iff, implies_true, and_true]
  refine ⟨reads_decimal, ?_, ?_, ?_, ?_⟩
  · exact reads_markedNumeral 10 (by simp [radices]) fun _ _ => rfl
  · exact reads_markedNumeral 16 (by simp [radices]) fun _ _ => rfl
  · exact reads_markedNumeral 8 (by simp [radices]) fun _ _ => rfl
  · exact reads_markedNumeral 2 (by simp [radices]) fun _ => binaryValue_eq_value

theorem reads_number : number.Reads Token := by
  refine reads_map (P := fun w n => Token w (.number n)) ?_ fun w n h => h
  refine reads_bind reads_integer fun u n h => reads_pure ?_
  rwa [List.append_nil]

/-! ## Booleans and characters -/

theorem reads_bool : bool.Reads Token := by
  refine reads_bind (reads_discard (reads_char '#')) ?_
  rintro u _ rfl
  refine reads_bind (reads_oneOf _ _) ?_
  rintro u ch ⟨rfl, hMem⟩
  refine reads_pure ?_
  simp only [List.mem_cons, List.not_mem_nil, or_false] at hMem
  rcases hMem with rfl | rfl
  · exact .yes
  · exact .no

/-- A text of one character is no name, and makes a character. -/
theorem ofCharacterText_singleton (ch : Char) :
    Datum.ofCharacterText ((characterNames.lookup (String.singleton ch)).getD (String.singleton ch)) =
      .ok (.character ch) := by
  have hLong : ∀ p ∈ characterNames, p.1.length ≠ 1 := by decide
  have hNone : characterNames.lookup (String.singleton ch) = none := by
    rw [List.lookup_eq_none_iff]
    intro p hp
    rw [bne_iff_ne]
    intro hName
    exact hLong p hp (by rw [← hName, String.length_singleton])
  rw [hNone]
  simp [Datum.ofCharacterText]

theorem reads_character : character.Reads Token := by
  have hText : (choice [attempt characterName, loneCharacter]).Reads fun w text =>
      (w = "newline".toList ∧ text = "newline") ∨ (w = "space".toList ∧ text = "space") ∨
        ∃ ch, w = [ch] ∧ text = String.singleton ch := by
    refine reads_choice ?_
    simp only [List.forall_mem_cons, List.not_mem_nil, false_imp_iff, implies_true, and_true]
    refine ⟨reads_attempt (reads_choice ?_), reads_bind (reads_satisfy _ _) ?_⟩
    · simp only [List.forall_mem_cons, List.not_mem_nil, false_imp_iff, implies_true, and_true]
      exact ⟨(reads_word _).mono fun _ _ h => .inl h,
        (reads_word _).mono fun _ _ h => .inr (.inl h)⟩
    · rintro u ch ⟨rfl, -⟩
      refine reads_bind (reads_notFollowedBy _) ?_
      rintro v _ rfl
      exact reads_pure (.inr (.inr ⟨ch, rfl, rfl⟩))
  refine reads_bind (reads_discard (reads_attempt ((reads_word _).mono fun _ _ h => h.1))) ?_
  rintro u _ rfl
  refine reads_bind hText ?_
  rintro w text (⟨rfl, rfl⟩ | ⟨rfl, rfl⟩ | ⟨ch, rfl, rfl⟩)
  · exact reads_ofExcept (a := .character '\n') rfl .newline
  · exact reads_ofExcept (a := .character ' ') rfl .space
  · exact reads_ofExcept (ofCharacterText_singleton ch) (.character ch)

/-! ## Fractions

These rules start with digits, or with digits after their mark.
-/

/-- A text that starts with a digit, or with one after the mark of base ten. -/
def StartsNumeral (w : List Char) : Prop :=
  ∃ d t, d.isDigit = true ∧ (w = d :: t ∨ w = '#' :: 'd' :: d :: t)

theorem StartsNumeral.append {w : List Char} (h : StartsNumeral w) (t : List Char) :
    StartsNumeral (w ++ t) := by
  obtain ⟨d, u, hDigit, rfl | rfl⟩ := h
  · exact ⟨d, u ++ t, hDigit, .inl rfl⟩
  · exact ⟨d, u ++ t, hDigit, .inr rfl⟩

theorem startsNumeral_of_digits {ds : List Char} (hNe : ds ≠ [])
    (hAll : ∀ d ∈ ds, d.isDigit = true) : StartsNumeral ds := by
  obtain ⟨d, t, rfl⟩ := List.exists_cons_of_ne_nil hNe
  exact ⟨d, t, hAll d List.mem_cons_self, .inl rfl⟩

theorem reads_digits : digits.Reads fun w _ => StartsNumeral w := by
  refine (reads_many1_satisfy Char.isDigit _).mono ?_
  rintro w as ⟨rfl, hNe, hAll⟩
  exact startsNumeral_of_digits hNe hAll

theorem reads_decimal_start : decimal.Reads fun w _ => StartsNumeral w :=
  reads_map reads_digits fun _ _ h => h

theorem reads_markedDecimal_start : markedDecimal.Reads fun w _ => StartsNumeral w := by
  refine reads_bind (reads_discard (reads_attempt ((reads_word _).mono fun _ _ h => h.1))) ?_
  rintro u _ rfl
  refine reads_map (reads_many1_satisfy Char.isDigit _) ?_
  rintro w as ⟨rfl, hNe, hAll⟩
  obtain ⟨d, t, rfl⟩ := List.exists_cons_of_ne_nil hNe
  exact ⟨d, t, hAll d List.mem_cons_self, .inr rfl⟩

theorem reads_double : double.Reads fun w _ => StartsNumeral w := by
  refine reads_bind reads_digits fun u _ hStart => ?_
  refine reads_bind (reads_discard (reads_char '.')) fun v _ _ => ?_
  refine reads_bind reads_digits fun v' _ _ => reads_pure ?_
  exact hStart.append _

theorem reads_float : float.Reads fun w _ => StartsNumeral w :=
  reads_map reads_double fun _ _ h => h

/-- The denominator of a ratio. A mismatch because it is zero lies at its start. -/
theorem reads_denominator (num : Nat) :
    Reads (do
      let start ← offset
      let den ← decimal
      if den = 0 then mismatch (.of start ["non-zero denominator"] (Text.quoted "0"))
      else return Datum.fraction num den) fun _ _ => True := by
  intro c
  show ((decimal.run c).andThen _).Meets c _
  cases hRun : decimal.run c with
  | mismatch m next => exact reads_decimal.of_mismatch hRun
  | abort e next => exact reads_decimal.of_abort hRun
  | ok den next =>
    obtain ⟨w, hReach, -⟩ := reads_decimal.of_ok hRun
    dsimp only [Outcome.andThen]
    split
    · exact ⟨⟨w, hReach⟩, Nat.le_refl _, Nat.le_add_right _ _, _, rfl, quoted_ne_empty "0"⟩
    · exact ⟨w, hReach, trivial⟩

theorem reads_ratio : ratio.Reads fun w _ => StartsNumeral w := by
  refine reads_bind reads_decimal_start fun u num hStart => ?_
  refine reads_bind (reads_discard (reads_char '/')) fun v _ _ => ?_
  exact (reads_denominator num).mono fun w _ _ => hStart.append _

theorem reads_complexPart : complexPart.Reads fun w _ => StartsNumeral w := by
  refine reads_choice ?_
  simp only [List.forall_mem_cons, List.not_mem_nil, false_imp_iff, implies_true, and_true]
  exact ⟨reads_attempt reads_double, reads_map reads_decimal_start fun _ _ h => h,
    reads_map reads_markedDecimal_start fun _ _ h => h⟩

theorem reads_complex : complex.Reads fun w _ => StartsNumeral w := by
  refine reads_bind reads_complexPart fun u _ hStart => ?_
  refine reads_bind (reads_discard (reads_char '+')) fun v _ _ => ?_
  refine reads_bind reads_complexPart fun v' _ _ => ?_
  refine reads_bind (reads_discard (reads_char 'i')) fun v'' _ _ => reads_pure ?_
  exact hStart.append _

end MiniScheme.Grammar
