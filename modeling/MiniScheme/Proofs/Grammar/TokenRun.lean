import MiniScheme.Proofs.Grammar.TokenContract
import MiniScheme.Proofs.Reading.Run

/-!
# How the rules for tokens run

Each rule reads a whole token if the text after it cannot go on the token, and refuses or fails where no
such token starts. Which tokens may start is told from the first character, or from the first two if the
first is `#`.
-/

namespace MiniScheme.Grammar

open Rule

variable {c : Cursor} {w rest : List Char}

/-! ## Where tokens end -/

theorem isSubsequent_of_isBlank {ch : Char} (h : Text.isBlank ch = true) :
    isSubsequent ch = false := by
  simp [isSubsequent, Text.isLetter_of_isBlank h, Text.isDigit_of_isBlank h,
    not_mem_signs_of_isBlank h]

theorem isInitial_of_isBlank {ch : Char} (h : Text.isBlank ch = true) : isInitial ch = false := by
  simp [isInitial, Text.isLetter_of_isBlank h, not_mem_signs_of_isBlank h]

theorem isInitial_of_isDigit {ch : Char} (h : ch.isDigit = true) : isInitial ch = false := by
  simp [isInitial, Text.isLetter_of_isDigit h, not_mem_signs_of_isDigit h]

theorem isHexDigit_of_isBlank {ch : Char} (h : Text.isBlank ch = true) :
    Numeral.isHexDigit ch = false := by
  have hVisible := Text.not_visible_of_isBlank h
  rw [Bool.eq_false_iff]
  intro hHex
  simp only [Numeral.isHexDigit, Text.isDigit_of_isBlank h, Bool.false_or, Bool.or_eq_true,
    Bool.and_eq_true, decide_eq_true_eq, Char.le_def, UInt32.le_iff_toNat_le] at hHex
  rcases hHex with ⟨hLow, hHigh⟩ | ⟨hLow, hHigh⟩
  · have hLow' : 97 ≤ ch.toNat := hLow
    have hHigh' : ch.toNat ≤ 102 := hHigh
    omega
  · have hLow' : 65 ≤ ch.toNat := hLow
    have hHigh' : ch.toNat ≤ 70 := hHigh
    omega

theorem Delimits.head_any (h : Delimits rest) {p : Char → Bool}
    (hBlank : ∀ ch, Text.isBlank ch = true → p ch = false) (hClose : p ')' = false) :
    rest.head?.any p = false := by
  cases rest with
  | nil => rfl
  | cons ch rest =>
    rcases h with hch | rfl
    · exact hBlank ch hch
    · exact hClose

theorem Delimits.head_any_digit (h : Delimits rest) {radix : Radix} (hRadix : radix ∈ radices) :
    rest.head?.any radix.isDigit = false := by
  have hNot : ∀ ch, Numeral.isHexDigit ch = false → radix.isDigit ch = false := by
    intro ch hHex
    rw [Bool.eq_false_iff] at hHex ⊢
    exact fun hd => hHex (isHexDigit_of_mem_radices hRadix hd)
  exact h.head_any (fun ch hch => hNot ch (isHexDigit_of_isBlank hch)) (hNot ')' (by decide))

theorem Delimits.head_any_subsequent (h : Delimits rest) :
    rest.head?.any isSubsequent = false :=
  h.head_any (fun _ => isSubsequent_of_isBlank) (by decide +kernel)

theorem Delimits.head_any_alphanumeric (h : Delimits rest) :
    rest.head?.any Text.isAlphanumeric = false :=
  h.head_any (fun _ => Text.isAlphanumeric_of_isBlank) (by decide +kernel)

/-! ## Symbols -/

theorem isClass_initial : IsClass (choice [letter, sign]) isInitial := by
  have hUnion : isInitial = fun ch =>
      [(letter, Text.isLetter), (sign, signs.contains)].any fun x => x.2 ch := by
    funext ch
    simp [isInitial]
  rw [hUnion]
  refine isClass_choice [(letter, Text.isLetter), (sign, signs.contains)] ?_
  simp only [List.forall_mem_cons, List.not_mem_nil, false_imp_iff, implies_true, and_true]
  exact ⟨isClass_satisfy _ _, isClass_satisfy _ _⟩

theorem isClass_subsequent : IsClass (choice [letter, digit, sign]) isSubsequent := by
  have hUnion : isSubsequent = fun ch =>
      [(letter, Text.isLetter), (digit, Char.isDigit), (sign, signs.contains)].any
        fun x => x.2 ch := by
    funext ch
    simp [isSubsequent, Bool.or_assoc]
  rw [hUnion]
  refine isClass_choice
    [(letter, Text.isLetter), (digit, Char.isDigit), (sign, signs.contains)] ?_
  simp only [List.forall_mem_cons, List.not_mem_nil, false_imp_iff, implies_true, and_true]
  exact ⟨isClass_satisfy _ _, isClass_satisfy _ _, isClass_satisfy _ _⟩

theorem run_symbol (hw : IsSymbolText w) (hRest : rest.head?.any isSubsequent = false)
    (offset : Nat) :
    symbol.run ⟨offset, w ++ rest⟩ = .ok (.symbol (String.ofList w)) ⟨offset + w.length, rest⟩ := by
  cases w with
  | nil => exact hw.elim
  | cons ch others =>
    obtain ⟨hInitial, hOthers⟩ := hw
    rw [symbol, List.cons_append, run_bind_of_ok (isClass_initial.run hInitial),
      run_bind_of_ok (isClass_subsequent.run_many_append hOthers hRest _), run_pure,
      List.length_cons, Nat.add_right_comm, Nat.add_assoc]

theorem refuses_symbol (h : c.rest.head?.any isInitial = false) : Refuses symbol c :=
  (isClass_initial.refuses h).bind _

/-! ## Strings -/

theorem run_escapedChar {letter ch : Char} (h : Escape letter ch) (offset : Nat)
    (rest : List Char) :
    escapedChar.run ⟨offset, '\\' :: letter :: rest⟩ = .ok ch ⟨offset + 2, rest⟩ := by
  rw [escapedChar, run_bind_of_ok (run_discard_of_ok (run_char _ _ _))]
  cases h
  all_goals
    rw [oneOf, run_bind_of_ok (run_satisfy (by decide))]
    rfl

theorem refuses_escapedChar (h : c.rest.head? ≠ some '\\') : Refuses escapedChar c :=
  (refuses_char h).discard.bind _

/-- The characters of a string that have been read stand before those that follow. -/
theorem run_stringChars_append {w s : List Char} (h : StringBody w s) (offset : Nat) (rest : List Char) :
    (many (choice [escapedChar, noneOf ['"', '\\']])).run ⟨offset, w ++ rest⟩ =
      ((many (choice [escapedChar, noneOf ['"', '\\']])).run ⟨offset + w.length, rest⟩).andThen
        fun chars last => .ok (s ++ chars) last := by
  induction h generalizing offset with
  | nil =>
    rw [List.nil_append, List.length_nil, Nat.add_zero]
    cases (many (choice [escapedChar, noneOf ['"', '\\']])).run ⟨offset, rest⟩ <;> rfl
  | @plain ch w s hQuote hBackslash _ ih =>
    have hChar : (choice [escapedChar, noneOf ['"', '\\']]).run ⟨offset, ch :: (w ++ rest)⟩ =
        .ok ch ⟨offset + 1, w ++ rest⟩ := by
      refine (run_choice_of_refuses (refuses_escapedChar ?_)).mpr (run_choice_of_ok (run_satisfy ?_))
      · simpa using hBackslash
      · simp [hQuote, hBackslash]
    rw [List.cons_append, run_many_of_ok reads_stringChar hChar (Nat.lt_succ_self _), ih,
      List.length_cons, Nat.add_right_comm, Nat.add_assoc]
    cases (many (choice [escapedChar, noneOf ['"', '\\']])).run ⟨offset + (w.length + 1), rest⟩ <;> rfl
  | @escape letter ch w s hEscape _ ih =>
    have hChar : (choice [escapedChar, noneOf ['"', '\\']]).run
        ⟨offset, '\\' :: letter :: (w ++ rest)⟩ = .ok ch ⟨offset + 2, w ++ rest⟩ :=
      run_choice_of_ok (run_escapedChar hEscape _ _)
    have hOffset : offset + 2 + w.length = offset + ('\\' :: letter :: w).length := by
      simp only [List.length_cons]
      omega
    rw [List.cons_append, List.cons_append,
      run_many_of_ok reads_stringChar hChar (by simp), ih, hOffset]
    cases (many (choice [escapedChar, noneOf ['"', '\\']])).run
      ⟨offset + ('\\' :: letter :: w).length, rest⟩ <;> rfl

/-- The characters of a string up to its closing quote. -/
theorem run_stringBody {w s : List Char} (h : StringBody w s) (offset : Nat) (rest : List Char) :
    (many (choice [escapedChar, noneOf ['"', '\\']])).run ⟨offset, w ++ '"' :: rest⟩ =
      .ok s ⟨offset + w.length, '"' :: rest⟩ := by
  have hEnd : Refuses (choice [escapedChar, noneOf ['"', '\\']]) ⟨offset + w.length, '"' :: rest⟩ := by
    refine refuses_choice ?_
    simp only [List.forall_mem_cons, List.not_mem_nil, false_imp_iff, implies_true, and_true]
    exact ⟨refuses_escapedChar (by simp), refuses_satisfy (by simp)⟩
  rw [run_stringChars_append h, run_many_of_refuses hEnd]
  simp only [Outcome.andThen, List.append_nil]

theorem run_string {w s : List Char} (h : StringBody w s) (offset : Nat) (rest : List Char) :
    string.run ⟨offset, ('"' :: w ++ ['"']) ++ rest⟩ =
      .ok (.string (String.ofList s)) ⟨offset + ('"' :: w ++ ['"']).length, rest⟩ := by
  have hText : ('"' :: w ++ ['"']) ++ rest = '"' :: (w ++ '"' :: rest) := by simp
  rw [hText, string, run_bind_of_ok (run_discard_of_ok (run_char _ _ _)),
    run_bind_of_ok (run_stringBody h _ _), run_bind_of_ok (run_discard_of_ok (run_char _ _ _)),
    run_pure]
  simp only [List.length_append, List.length_cons, List.length_nil]
  congr 2
  omega

theorem refuses_string (h : c.rest.head? ≠ some '"') : Refuses string c :=
  (refuses_char h).discard.bind _

/-! ## Numbers -/

theorem run_markedNumeral (mark : String) {p : Char → Bool} {expected : List String}
    {value : List Char → Nat} {ds : List Char} (hNe : ds ≠ []) (hAll : ∀ d ∈ ds, p d = true)
    (hRest : rest.head?.any p = false) (offset : Nat) :
    (markedNumeral mark (satisfy p expected) value).run ⟨offset, mark.toList ++ (ds ++ rest)⟩ =
      .ok (value ds) ⟨offset + mark.toList.length + ds.length, rest⟩ := by
  rw [markedNumeral, run_bind_of_ok (run_discard_of_ok (run_attempt_of_ok (run_word _ _ _))),
    run_map, (isClass_satisfy p expected).run_many1_append hNe hAll hRest]
  rfl

theorem refuses_markedNumeral (mark : String) {digit : Rule Char} {value : List Char → Nat}
    (h : ¬ mark.toList <+: c.rest) : Refuses (markedNumeral mark digit value) c :=
  (fails_word mark h).attempt.discard.bind _

theorem run_decimal {ds : List Char} (hNe : ds ≠ []) (hAll : ∀ d ∈ ds, d.isDigit = true)
    (hRest : rest.head?.any Char.isDigit = false) (offset : Nat) :
    decimal.run ⟨offset, ds ++ rest⟩ = .ok (Numeral.value 10 ds) ⟨offset + ds.length, rest⟩ := by
  rw [decimal, run_map, digits, digit,
    (isClass_satisfy Char.isDigit _).run_many1_append hNe hAll hRest]
  rfl

theorem refuses_digits (h : c.rest.head?.any Char.isDigit = false) : Refuses digits c :=
  (refuses_satisfy h).bind _

theorem refuses_decimal (h : c.rest.head?.any Char.isDigit = false) : Refuses decimal c :=
  (refuses_digits h).map _

/-- The ways to write integers are told apart by their marks. -/
theorem run_integer {radix : Radix} (hRadix : radix ∈ radices) {ds : List Char} (hNe : ds ≠ [])
    (hAll : ∀ d ∈ ds, radix.isDigit d = true) (hRest : rest.head?.any radix.isDigit = false)
    (offset : Nat) :
    integer.run ⟨offset, (radix.mark ++ ds) ++ rest⟩ =
      .ok (positional radix.base ds) ⟨offset + (radix.mark ++ ds).length, rest⟩ := by
  rw [← value_of_mem_radices hRadix hAll, List.append_assoc, List.length_append, ← Nat.add_assoc,
    integer]
  simp only [radices, List.mem_cons, List.not_mem_nil, or_false] at hRadix
  rcases hRadix with rfl | rfl | rfl | rfl | rfl
  · exact run_choice_of_ok (run_decimal hNe hAll hRest offset)
  · refine (run_choice_of_refuses (refuses_decimal rfl)).mpr ?_
    exact run_choice_of_ok (run_markedNumeral "#d" hNe hAll hRest offset)
  · refine (run_choice_of_refuses (refuses_decimal rfl)).mpr ?_
    refine (run_choice_of_refuses (refuses_markedNumeral _ (by simp))).mpr ?_
    exact run_choice_of_ok (run_markedNumeral "#x" hNe hAll hRest offset)
  · refine (run_choice_of_refuses (refuses_decimal rfl)).mpr ?_
    refine (run_choice_of_refuses (refuses_markedNumeral _ (by simp))).mpr ?_
    refine (run_choice_of_refuses (refuses_markedNumeral _ (by simp))).mpr ?_
    exact run_choice_of_ok (run_markedNumeral "#o" hNe hAll hRest offset)
  · refine (run_choice_of_refuses (refuses_decimal rfl)).mpr ?_
    refine (run_choice_of_refuses (refuses_markedNumeral _ (by simp))).mpr ?_
    refine (run_choice_of_refuses (refuses_markedNumeral _ (by simp))).mpr ?_
    refine (run_choice_of_refuses (refuses_markedNumeral _ (by simp))).mpr ?_
    rw [← binaryValue_eq_value hAll]
    exact run_choice_of_ok (run_markedNumeral "#b" hNe hAll hRest offset)

theorem run_number {n : Nat} {offset : Nat} {next : Cursor}
    (h : integer.run ⟨offset, w⟩ = .ok n next) : number.run ⟨offset, w⟩ = .ok (.number n) next := by
  rw [number, run_map, run_bind_of_ok h]
  rfl

theorem refuses_number (hDigit : c.rest.head?.any Char.isDigit = false)
    (hMark : ∀ k ∈ ['d', 'x', 'o', 'b'], ¬ ['#', k] <+: c.rest) : Refuses number c := by
  simp only [List.forall_mem_cons, List.not_mem_nil, false_imp_iff, implies_true, and_true] at hMark
  obtain ⟨hd, hx, ho, hb⟩ := hMark
  refine ((refuses_choice ?_).bind _).map _
  simp only [List.forall_mem_cons, List.not_mem_nil, false_imp_iff, implies_true, and_true]
  exact ⟨refuses_decimal hDigit, refuses_markedNumeral "#d" hd, refuses_markedNumeral "#x" hx,
    refuses_markedNumeral "#o" ho, refuses_markedNumeral "#b" hb⟩

/-- A digit after its mark is the start of a number, whatever follows it. -/
theorem run_number_of_digit {radix : Radix} (hRadix : radix ∈ radices) {d : Char}
    (hd : radix.isDigit d = true) (t : List Char) (offset : Nat) :
    ∃ n next, number.run ⟨offset, radix.mark ++ d :: t⟩ = .ok (.number n) next := by
  obtain ⟨hText, hDigits, hRest⟩ := Text.cut_iff.mpr
    (⟨rfl, rfl⟩ : t.takeWhile radix.isDigit = _ ∧ t.dropWhile radix.isDigit = _)
  have hInteger := run_integer hRadix (List.cons_ne_nil _ _) (List.forall_mem_cons.mpr ⟨hd, hDigits⟩)
    hRest offset
  rw [List.append_assoc, List.cons_append, ← hText] at hInteger
  exact ⟨_, _, run_number hInteger⟩

theorem run_number_of_startsNumeral {text : List Char} (h : StartsNumeral text) (offset : Nat) :
    ∃ n next, number.run ⟨offset, text⟩ = .ok (.number n) next := by
  obtain ⟨d, t, hd, rfl | rfl⟩ := h
  · exact run_number_of_digit (show ⟨[], Char.isDigit, 10⟩ ∈ radices by simp [radices]) hd t offset
  · exact run_number_of_digit (show ⟨['#', 'd'], Char.isDigit, 10⟩ ∈ radices by simp [radices])
      hd t offset

/-! ## Booleans and characters -/

theorem run_bool_true (offset : Nat) (rest : List Char) :
    bool.run ⟨offset, '#' :: 't' :: rest⟩ = .ok (.bool true) ⟨offset + 2, rest⟩ := by
  rw [bool, run_bind_of_ok (run_discard_of_ok (run_char _ _ _)), oneOf,
    run_bind_of_ok (run_satisfy (by decide))]
  rfl

theorem run_bool_false (offset : Nat) (rest : List Char) :
    bool.run ⟨offset, '#' :: 'f' :: rest⟩ = .ok (.bool false) ⟨offset + 2, rest⟩ := by
  rw [bool, run_bind_of_ok (run_discard_of_ok (run_char _ _ _)), oneOf,
    run_bind_of_ok (run_satisfy (by decide))]
  rfl

theorem fails_bool (h : ∀ k ∈ ['t', 'f'], ¬ ['#', k] <+: c.rest) : Fails bool c := by
  obtain ⟨offset, text⟩ := c
  by_cases hHead : text.head? = some '#'
  · obtain ⟨rest, rfl⟩ := List.head?_eq_some_iff.mp hHead
    refine fails_bind_of_ok (run_discard_of_ok (run_char _ _ _)) ((refuses_satisfy ?_).bind _).fails
    cases rest with
    | nil => rfl
    | cons ch rest =>
      simp only [List.forall_mem_cons, List.not_mem_nil, false_imp_iff, implies_true, and_true,
        List.cons_prefix_cons, true_and, List.nil_prefix] at h
      simp [Ne.symm h.1, Ne.symm h.2]
  · exact ((refuses_char hHead).discard.bind _).fails

theorem fails_character (h : ¬ ['#', '\\'] <+: c.rest) : Fails character c :=
  ((fails_word "#\\" h).attempt.discard.bind _).fails

theorem run_character (text : String) {ch : Char} {offset : Nat} {rest : List Char} {next : Cursor}
    (hText : (choice [attempt characterName, loneCharacter]).run ⟨offset + 2, rest⟩ = .ok text next)
    (hChar : Datum.ofCharacterText ((characterNames.lookup text).getD text) = .ok (.character ch)) :
    character.run ⟨offset, '#' :: '\\' :: rest⟩ = .ok (.character ch) next := by
  have hMark : (word "#\\").run ⟨offset, '#' :: '\\' :: rest⟩ = .ok "#\\" ⟨offset + 2, rest⟩ :=
    run_word offset "#\\" rest
  rw [character, run_bind_of_ok (run_discard_of_ok (run_attempt_of_ok hMark)),
    run_bind_of_ok hText, hChar]
  rfl

theorem run_character_newline (offset : Nat) (rest : List Char) :
    character.run ⟨offset, '#' :: '\\' :: ("newline".toList ++ rest)⟩ =
      .ok (.character '\n') ⟨offset + 2 + "newline".toList.length, rest⟩ :=
  run_character "newline" (run_choice_of_ok (run_attempt_of_ok (run_choice_of_ok (run_word _ _ _)))) rfl

theorem run_character_space (offset : Nat) (rest : List Char) :
    character.run ⟨offset, '#' :: '\\' :: ("space".toList ++ rest)⟩ =
      .ok (.character ' ') ⟨offset + 2 + "space".toList.length, rest⟩ := by
  refine run_character "space" (run_choice_of_ok (run_attempt_of_ok ?_)) rfl
  refine (run_choice_of_refuses ?_).mpr (run_choice_of_ok (run_word _ _ _))
  exact ⟨_, rfl⟩

/-- The word does not start with a character that is followed by a delimiter. -/
theorem not_prefix_of_delimits {first second : Char} {others rest : List Char} {ch : Char}
    (hSecond : Text.isBlank second = false ∧ second ≠ ')') (h : Delimits rest) :
    ¬ (first :: second :: others) <+: ch :: rest := by
  rintro ⟨t, hText⟩
  obtain ⟨-, rfl⟩ := List.cons.inj hText
  rcases h with hBlank | rfl
  · simp [hBlank] at hSecond
  · simp at hSecond

theorem run_character_lone (ch : Char) (h : Delimits rest) (offset : Nat) :
    character.run ⟨offset, '#' :: '\\' :: ch :: rest⟩ = .ok (.character ch) ⟨offset + 3, rest⟩ := by
  refine run_character (String.singleton ch) ?_ (ofCharacterText_singleton ch)
  have hName : Fails characterName ⟨offset + 2, ch :: rest⟩ := by
    refine fails_choice ?_
    simp only [List.forall_mem_cons, List.not_mem_nil, false_imp_iff, implies_true, and_true]
    exact ⟨fails_word _ (not_prefix_of_delimits (by decide) h),
      fails_word _ (not_prefix_of_delimits (by decide) h)⟩
  refine (run_choice_of_refuses hName.attempt).mpr (run_choice_of_ok ?_)
  rw [loneCharacter, anyChar, run_bind_of_ok (run_satisfy rfl),
    run_bind_of_ok (run_notFollowedBy h.head_any_alphanumeric)]
  rfl

/-! ## Fractions -/

theorem refuses_float (h : c.rest.head?.any Char.isDigit = false) : Refuses float c :=
  ((refuses_digits h).bind _).map _

theorem refuses_ratio (h : c.rest.head?.any Char.isDigit = false) : Refuses ratio c :=
  (refuses_decimal h).bind _

theorem refuses_complex (h : c.rest.head?.any Char.isDigit = false)
    (hMark : ¬ ['#', 'd'] <+: c.rest) : Refuses complex c := by
  refine (refuses_choice ?_).bind _
  simp only [List.forall_mem_cons, List.not_mem_nil, false_imp_iff, implies_true, and_true]
  exact ⟨((refuses_digits h).bind _).fails.attempt, (refuses_decimal h).map _,
    (refuses_markedNumeral "#d" hMark).map _⟩

end MiniScheme.Grammar
