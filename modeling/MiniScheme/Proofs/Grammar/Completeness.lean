import MiniScheme.Proofs.Grammar.Soundness

/-!
# What stands for a datum is read

A text that stands for a datum is read as that datum, and just up to its end, if the text after it cannot
go on with it (`run_expression`).

An expression is told by its first character: every text of the grammar starts with an opener, and where no
opener is ahead, an expression refuses to start. This is how the items of a list end before its closing
parenthesis, and how those of a dotted list end before the dot. The list that is tried first fails on a
dotted list, having read blanks before the dot, and the dotted list is read anew.
-/

namespace MiniScheme.Grammar

open Rule

/-! ## Openers -/

/-- A character that an expression may start with. -/
def isOpener (ch : Char) : Bool :=
  isInitial ch || ch.isDigit || ['"', '#', '\'', '\x60', ',', '('].contains ch

theorem isOpener_of_isInitial {ch : Char} (h : isInitial ch = true) : isOpener ch = true := by
  simp [isOpener, h]

theorem isOpener_of_isDigit {ch : Char} (h : ch.isDigit = true) : isOpener ch = true := by
  simp [isOpener, h]

theorem isOpener_of_mem {ch : Char} (h : ch ∈ ['"', '#', '\'', '\x60', ',', '(']) :
    isOpener ch = true := by
  rw [isOpener, List.contains_iff_mem.mpr h, Bool.or_true]

theorem isOpener_of_isBlank {ch : Char} (h : Text.isBlank ch = true) : isOpener ch = false := by
  have hMem : ch ∉ ['"', '#', '\'', '\x60', ',', '('] := by
    intro hMem
    have hVisible : ∀ x ∈ ['"', '#', '\'', '\x60', ',', '('], 0x21 ≤ x.toNat ∧ x.toNat ≤ 0x7e :=
      Text.forall_mem_of_all (by decide)
    exact Text.not_visible_of_isBlank h (hVisible ch hMem)
  simp only [isOpener, isInitial_of_isBlank h, Text.isDigit_of_isBlank h, Bool.false_or]
  simpa using hMem

theorem isBlank_of_isOpener {ch : Char} (h : isOpener ch = true) : Text.isBlank ch = false := by
  rw [Bool.eq_false_iff]
  intro hBlank
  rw [isOpener_of_isBlank hBlank] at h
  cases h

theorem isOpener_close : isOpener ')' = false := by decide +kernel

theorem isOpener_dot : isOpener '.' = false := by decide +kernel

theorem head?_ne_of_not_opener {text : List Char} (h : text.head?.any isOpener = false) :
    ∀ ch ∈ ['"', '#', '\'', '\x60', ',', '('], text.head? ≠ some ch := by
  intro ch hMem hEq
  rw [hEq, Option.any_some, isOpener_of_mem hMem] at h
  cases h

/-- No character of a class of openers is ahead if no opener is. -/
theorem head?_any_of_not_opener {text : List Char} (h : text.head?.any isOpener = false)
    {p : Char → Bool} (hp : ∀ ch, p ch = true → isOpener ch = true) : text.head?.any p = false := by
  rw [Bool.eq_false_iff]
  intro hAny
  obtain ⟨ch, hEq, hClass⟩ := (Option.any_eq_true p _).mp hAny
  rw [hEq, Option.any_some, hp ch hClass] at h
  cases h

/-- The text starts with an opener. -/
def Opens (text : List Char) : Prop :=
  text.head?.any isOpener = true

theorem Opens.append {text : List Char} (h : Opens text) (rest : List Char) :
    Opens (text ++ rest) := by
  cases text with
  | nil => cases h
  | cons ch text => exact h

theorem Opens.not_blank {text : List Char} (h : Opens text) (rest : List Char) :
    (text ++ rest).head?.any Text.isBlank = false := by
  cases text with
  | nil => cases h
  | cons ch text => exact isBlank_of_isOpener h

theorem Token.opens {w : List Char} {v : Datum} (h : Token w v) : Opens w := by
  cases h with
  | symbol hw =>
    cases w with
    | nil => exact hw.elim
    | cons ch t => exact isOpener_of_isInitial hw.1
  | @number radix digits hRadix hNe hAll =>
    simp only [radices, List.mem_cons, List.not_mem_nil, or_false] at hRadix
    obtain ⟨d, t, rfl⟩ := List.exists_cons_of_ne_nil hNe
    rcases hRadix with rfl | rfl | rfl | rfl | rfl
    · exact isOpener_of_isDigit (hAll d List.mem_cons_self)
    all_goals exact isOpener_of_mem (by simp)
  | string | yes | no | newline | space | character => exact isOpener_of_mem (by simp)

theorem Denotes.opens {w : List Char} {v : Datum} (h : Denotes w v) : Opens w := by
  cases h with
  | token hToken => exact hToken.opens
  | quote | quasiquote | unquote | vector | list | dotted => exact isOpener_of_mem (by simp)

/-! ## Blanks -/

theorem run_blanks {s rest : List Char} (hs : IsBlanks s)
    (hRest : rest.head?.any Text.isBlank = false) (offset : Nat) :
    blanks.run ⟨offset, s ++ rest⟩ = .ok () ⟨offset + s.length, rest⟩ :=
  run_discard_of_ok ((isClass_satisfy Text.isBlank _).run_many1_append hs.1 hs.2 hRest offset)

theorem refuses_blanks {c : Cursor} (h : c.rest.head?.any Text.isBlank = false) :
    Refuses blanks c :=
  ((refuses_satisfy h).bind _).discard

theorem IsBlanks.delimits {s : List Char} (hs : IsBlanks s) (t : List Char) : Delimits (s ++ t) := by
  obtain ⟨ch, s, rfl⟩ := List.exists_cons_of_ne_nil hs.1
  exact .inl (hs.2 ch List.mem_cons_self)

theorem IsBlanks.length_pos {s : List Char} (hs : IsBlanks s) : 0 < s.length :=
  List.length_pos_iff.mpr hs.1

/-! ## Items

The rule `expr` for the items reads all texts in the relation `D`. These start with openers, and where no
opener is ahead, `expr` refuses to start.
-/

/-- The rule reads every text in the relation `D` if a delimiter follows. -/
structure Accepts (expr : Rule Datum) (D : List Char → Datum → Prop) : Prop where
  run : ∀ {w v rest}, D w v → Delimits rest → ∀ offset,
    expr.run ⟨offset, w ++ rest⟩ = .ok v ⟨offset + w.length, rest⟩
  opens : ∀ {w v}, D w v → Opens w
  refuses : ∀ {c}, c.rest.head?.any isOpener = false → Refuses expr c

section Items

variable {expr : Rule Datum} {D P : List Char → Datum → Prop} (hAccepts : Accepts expr D)
  (hReads : expr.Reads P)

include hAccepts in
/-- Blanks and an item. -/
theorem run_blanks_item {s w rest : List Char} {v : Datum} (hs : IsBlanks s) (hv : D w v)
    (hRest : Delimits rest) (offset : Nat) :
    (do discard blanks; expr : Rule Datum).run ⟨offset, s ++ (w ++ rest)⟩ =
      .ok v ⟨offset + s.length + w.length, rest⟩ := by
  have hHead := (hAccepts.opens hv).not_blank rest
  rw [run_bind_of_ok (run_discard_of_ok (run_blanks hs hHead offset))]
  exact hAccepts.run hv hRest _

include hAccepts hReads in
/-- The items after the first, up to the closing parenthesis. -/
theorem run_later_items {w : List Char} {v : Datum} {vs : List Datum}
    (h : Separated D w (v :: vs)) (rest : List Char) (offset : Nat) :
    ∃ u t, w = u ++ t ∧ D u v ∧ Delimits (t ++ ')' :: rest) ∧
      (many (do discard blanks; expr)).run ⟨offset + u.length, t ++ ')' :: rest⟩ =
        .ok vs ⟨offset + w.length, ')' :: rest⟩ := by
  have hItem : Reads (do discard blanks; expr) fun _ _ => True :=
    reads_bind (reads_discard reads_blanks) fun _ _ _ => hReads.mono fun _ _ _ => trivial
  generalize hItems : v :: vs = items at h
  induction h generalizing v vs offset with
  | nil => cases hItems
  | @single w v hv =>
    cases hItems
    refine ⟨w, [], by simp, hv, .inr rfl, ?_⟩
    exact run_many_of_refuses ((refuses_blanks rfl).discard.bind _)
  | @cons w s t v v' vs hv hs _ ih =>
    cases hItems
    obtain ⟨u, t, rfl, hv', hDelimits, hRun⟩ := ih (offset + w.length + s.length) rfl
    refine ⟨w, s ++ (u ++ t), rfl, hv, by rw [List.append_assoc]; exact hs.delimits _, ?_⟩
    have hNext := run_blanks_item hAccepts hs hv' hDelimits (offset + w.length)
    have hPos := hs.length_pos
    rw [List.append_assoc, List.append_assoc, run_many_of_ok hItem hNext (by simp; omega), hRun]
    simp only [Outcome.andThen, List.length_append]
    congr 2
    omega

include hAccepts hReads in
theorem run_items {w : List Char} {items : List Datum} (h : Separated D w items)
    (rest : List Char) (offset : Nat) :
    (sepBy expr blanks).run ⟨offset, w ++ ')' :: rest⟩ =
      .ok items ⟨offset + w.length, ')' :: rest⟩ := by
  cases items with
  | nil =>
    cases h
    have hRefused := hAccepts.refuses (c := ⟨offset, ')' :: rest⟩) isOpener_close
    rw [sepBy, List.nil_append, run_bind_of_ok (run_optional_of_refuses hRefused)]
    rfl
  | cons v vs =>
    obtain ⟨u, t, rfl, hv, hDelimits, hLater⟩ := run_later_items hAccepts hReads h rest offset
    have hFirst := hAccepts.run hv hDelimits offset
    rw [sepBy, List.append_assoc, run_bind_of_ok (run_optional_of_ok hFirst)]
    exact run_bind_of_ok hLater

include hAccepts hReads in
/-- The items of a dotted list up to the dot. -/
theorem run_ended_items {w : List Char} {items : List Datum} (h : Ended D w items)
    (rest : List Char) (offset : Nat) :
    (endBy expr blanks).run ⟨offset, w ++ '.' :: rest⟩ =
      .ok items ⟨offset + w.length, '.' :: rest⟩ := by
  have hItem : Reads (do let a ← expr; discard blanks; return a) fun _ _ => True :=
    reads_bind hReads fun _ _ _ => reads_bind (reads_discard reads_blanks) fun _ _ _ =>
      reads_pure trivial
  induction h generalizing offset with
  | nil =>
    refine run_many_of_refuses ((hAccepts.refuses ?_).bind _)
    exact isOpener_dot
  | @cons w s t v vs hv hs hEnded ih =>
    have hHead : (t ++ '.' :: rest).head?.any Text.isBlank = false := by
      cases hEnded with
      | nil => rfl
      | cons hv' _ _ => exact ((hAccepts.opens hv').append _).not_blank _
    have hNext : (do let a ← expr; discard blanks; return a : Rule Datum).run
        ⟨offset, w ++ (s ++ (t ++ '.' :: rest))⟩ =
          .ok v ⟨offset + w.length + s.length, t ++ '.' :: rest⟩ := by
      rw [run_bind_of_ok (hAccepts.run hv (hs.delimits _) offset),
        run_bind_of_ok (run_discard_of_ok (run_blanks hs hHead _)), run_pure]
    have hPos := hs.length_pos
    rw [List.append_assoc, List.append_assoc, endBy, run_many_of_ok hItem hNext (by simp; omega)]
    show ((endBy expr blanks).run _).andThen _ = _
    rw [ih]
    simp only [Outcome.andThen, List.length_append]
    congr 2
    omega

include hAccepts hReads in
/-- Blanks and items up to the dot do not match, because an item is missing after the last blanks. -/
theorem fails_later_items {s t : List Char} {items : List Datum} (hs : IsBlanks s)
    (h : Ended D t items) (rest : List Char) (offset : Nat) :
    Fails (many (do discard blanks; expr)) ⟨offset, s ++ (t ++ '.' :: rest)⟩ := by
  have hItem : Reads (do discard blanks; expr) fun _ _ => True :=
    reads_bind (reads_discard reads_blanks) fun _ _ _ => hReads.mono fun _ _ _ => trivial
  induction h generalizing s offset with
  | nil =>
    obtain ⟨m, hRun⟩ := hAccepts.refuses (c := ⟨offset + s.length, '.' :: rest⟩) isOpener_dot
    have hNext : (do discard blanks; expr : Rule Datum).run ⟨offset, s ++ '.' :: rest⟩ =
        .mismatch m ⟨offset + s.length, '.' :: rest⟩ := by
      rw [run_bind_of_ok (run_discard_of_ok (run_blanks hs rfl offset)), hRun]
    have hPos := hs.length_pos
    have hMoved : offset + s.length ≠ offset := by omega
    exact ⟨m, _, run_many_of_moved hNext hMoved⟩
  | @cons w s' t v vs hv hs' _ ih =>
    have hNext := run_blanks_item hAccepts hs hv (hs'.delimits (t ++ '.' :: rest)) offset
    obtain ⟨m, next, hRun⟩ := ih hs' (offset + s.length + w.length)
    refine ⟨m, next, ?_⟩
    have hPos := hs.length_pos
    rw [List.append_assoc, List.append_assoc, run_many_of_ok hItem hNext (by simp; omega), hRun]
    rfl

include hAccepts hReads in
/-- A dotted list is no list. -/
theorem fails_closed_list {w : List Char} {items : List Datum} (h : Ended D w items)
    (rest : List Char) (offset : Nat) :
    Fails (closed (list expr)) ⟨offset, w ++ '.' :: rest⟩ := by
  cases h with
  | nil =>
    have hRefused := hAccepts.refuses (c := ⟨offset, '.' :: rest⟩) isOpener_dot
    have hList : (list expr).run ⟨offset, '.' :: rest⟩ = .ok (.list []) ⟨offset, '.' :: rest⟩ := by
      rw [list, run_map, sepBy, run_bind_of_ok (run_optional_of_refuses hRefused)]
      rfl
    exact fails_bind_of_ok hList ((refuses_char (by simp)).discard.bind _).fails
  | @cons w s t v vs hv hs hEnded =>
    rw [List.append_assoc, List.append_assoc]
    have hFirst := hAccepts.run hv (hs.delimits (t ++ '.' :: rest)) offset
    have hLater := fails_later_items hAccepts hReads hs hEnded rest (offset + w.length)
    exact ((fails_bind_of_ok (run_optional_of_ok hFirst) (hLater.bind _)).map _).bind _

/-! ## Data that hold data -/

theorem run_closed {r : Rule Datum} {v : Datum} {c : Cursor} {offset : Nat} {rest : List Char}
    (h : r.run c = .ok v ⟨offset, ')' :: rest⟩) : (closed r).run c = .ok v ⟨offset + 1, rest⟩ := by
  rw [closed, run_bind_of_ok h, run_bind_of_ok (run_discard_of_ok (run_char _ _ _)), run_pure]

include hAccepts in
theorem run_quotation {mark : Char} {name : String} (hEntry : entry quotationNames mark = .ok name)
    {w rest : List Char} {v : Datum} (hv : D w v) (hRest : Delimits rest) (offset : Nat) :
    (quotation mark expr).run ⟨offset, mark :: w ++ rest⟩ =
      .ok (.list [.symbol name, v]) ⟨offset + (mark :: w).length, rest⟩ := by
  have hName : (ofExcept (entry quotationNames mark)).run ⟨offset + 1, w ++ rest⟩ =
      .ok name ⟨offset + 1, w ++ rest⟩ := by
    rw [hEntry]
    rfl
  rw [quotation, List.cons_append, run_bind_of_ok (run_discard_of_ok (run_char _ _ _)),
    run_bind_of_ok hName, run_bind_of_ok (hAccepts.run hv hRest _), run_pure, List.length_cons,
    Nat.add_right_comm, Nat.add_assoc]

include hAccepts hReads in
theorem run_vector {w : List Char} {items : List Datum} (h : Separated D w items)
    (rest : List Char) (offset : Nat) :
    (vector expr).run ⟨offset, '#' :: '(' :: w ++ [')'] ++ rest⟩ =
      .ok (.vector items) ⟨offset + ('#' :: '(' :: w ++ [')']).length, rest⟩ := by
  have hText : '#' :: '(' :: w ++ [')'] ++ rest = "#(".toList ++ (w ++ ')' :: rest) := by simp
  rw [hText, vector, run_bind_of_ok (run_discard_of_ok (run_word _ _ _)),
    run_bind_of_ok (run_items hAccepts hReads h rest _),
    run_bind_of_ok (run_discard_of_ok (run_char _ _ _)), vectorOfBounds_items]
  show Outcome.ok _ _ = _
  simp only [List.length_append, List.length_cons, List.length_nil]
  congr 2
  simp
  omega

include hAccepts hReads in
theorem run_list {w : List Char} {items : List Datum} (h : Separated D w items)
    (rest : List Char) (offset : Nat) :
    (parenthesized expr).run ⟨offset, '(' :: w ++ [')'] ++ rest⟩ =
      .ok (.list items) ⟨offset + ('(' :: w ++ [')']).length, rest⟩ := by
  have hText : '(' :: w ++ [')'] ++ rest = '(' :: (w ++ ')' :: rest) := by simp
  have hList : (list expr).run ⟨offset + 1, w ++ ')' :: rest⟩ =
      .ok (.list items) ⟨offset + 1 + w.length, ')' :: rest⟩ := by
    rw [list, run_map, run_items hAccepts hReads h]
    rfl
  rw [hText, parenthesized, run_bind_of_ok (run_discard_of_ok (run_char _ _ _)),
    run_choice_of_ok (run_attempt_of_ok (run_closed hList))]
  simp only [List.length_append, List.length_cons, List.length_nil]
  congr 2
  omega

include hAccepts hReads in
theorem run_dotted {w s t : List Char} {items : List Datum} {tail : Datum} (h : Ended D w items)
    (hs : IsBlanks s) (hTail : D t tail) (rest : List Char) (offset : Nat) :
    (parenthesized expr).run ⟨offset, '(' :: w ++ ('.' :: s ++ t) ++ [')'] ++ rest⟩ =
      .ok (.dotted items tail) ⟨offset + ('(' :: w ++ ('.' :: s ++ t) ++ [')']).length, rest⟩ := by
  have hText : '(' :: w ++ ('.' :: s ++ t) ++ [')'] ++ rest =
      '(' :: (w ++ '.' :: (s ++ (t ++ ')' :: rest))) := by simp
  have hHead := (hAccepts.opens hTail).not_blank (')' :: rest)
  have hDelimits : Delimits (')' :: rest) := .inr rfl
  have hDotted : (dottedList expr).run ⟨offset + 1, w ++ '.' :: (s ++ (t ++ ')' :: rest))⟩ =
      .ok (.dotted items tail)
        ⟨offset + 1 + w.length + 1 + s.length + t.length, ')' :: rest⟩ := by
    rw [dottedList, run_bind_of_ok (run_ended_items hAccepts hReads h _ _),
      run_bind_of_ok (run_discard_of_ok (run_char _ _ _)), run_bind_of_ok (run_blanks hs hHead _),
      run_bind_of_ok (hAccepts.run hTail hDelimits _), run_pure]
  rw [hText, parenthesized, run_bind_of_ok (run_discard_of_ok (run_char _ _ _)),
    (run_choice_of_refuses (fails_closed_list hAccepts hReads h _ _).attempt).mpr
      (run_choice_of_ok (run_closed hDotted))]
  simp only [List.length_append, List.length_cons, List.length_nil]
  congr 2
  omega

end Items

/-! ## Tokens -/

/-- The alternatives for the data that hold no other data. -/
def tokenRules : List (Rule Datum) :=
  [symbol, string, attempt number, attempt bool, attempt character, attempt float, attempt ratio,
    attempt complex]

/-- No token starts like the text. -/
structure NoToken (text : List Char) : Prop where
  initial : text.head?.any isInitial = false
  quote : text.head? ≠ some '"'
  digit : text.head?.any Char.isDigit = false
  mark : ∀ k ∈ ['d', 'x', 'o', 'b', 't', 'f', '\\'], ¬ ['#', k] <+: text

theorem NoToken.refuses {c : Cursor} (h : NoToken c.rest) : ∀ r ∈ tokenRules, Refuses r c := by
  have hNumber : Refuses number c :=
    refuses_number h.digit fun k hk => h.mark k (Text.forall_mem_of_all (by decide) k hk)
  have hBool : Fails bool c :=
    fails_bool fun k hk => h.mark k (Text.forall_mem_of_all (by decide) k hk)
  simp only [tokenRules, List.forall_mem_cons, List.not_mem_nil, false_imp_iff, implies_true,
    and_true]
  exact ⟨refuses_symbol h.initial, refuses_string h.quote, hNumber.fails.attempt, hBool.attempt,
    (fails_character (h.mark _ (by simp))).attempt, (refuses_float h.digit).fails.attempt,
    (refuses_ratio h.digit).fails.attempt,
    (refuses_complex h.digit (h.mark _ (by simp))).fails.attempt⟩

/-- A text that does not start with a sharp starts like no token if its first character does not. -/
theorem noToken_of_head {text : List Char} (hInitial : text.head?.any isInitial = false)
    (hDigit : text.head?.any Char.isDigit = false) (hQuote : text.head? ≠ some '"')
    (hSharp : text.head? ≠ some '#') : NoToken text := by
  refine ⟨hInitial, hQuote, hDigit, ?_⟩
  rintro k - ⟨t, rfl⟩
  exact hSharp rfl

theorem isInitial_sharp : isInitial '#' = false := by decide +kernel

theorem not_startsWith_sharp {k : Char} {ks : List Char} (hk : k ∉ ks) (text : List Char) :
    ∀ k' ∈ ks, ¬ ['#', k'] <+: '#' :: k :: text := by
  intro k' hk' hPrefix
  have hEq : k' = k := (List.cons_prefix_cons.mp (List.cons_prefix_cons.mp hPrefix).2).1
  exact hk (hEq ▸ hk')

theorem noToken_vector (text : List Char) : NoToken ('#' :: '(' :: text) :=
  ⟨isInitial_sharp, by simp, rfl, not_startsWith_sharp (by decide) text⟩

theorem refuses_number_sharp {k : Char} (hk : k ∉ ['d', 'x', 'o', 'b']) (text : List Char)
    (offset : Nat) : Refuses number ⟨offset, '#' :: k :: text⟩ :=
  refuses_number rfl (not_startsWith_sharp hk text)

/-- A text with a sharp first is neither a symbol nor a string. -/
theorem run_choice_sharp {rs : List (Rule Datum)} {text : List Char} {offset : Nat} {next : Cursor}
    {v : Datum} :
    (choice (symbol :: string :: rs)).run ⟨offset, '#' :: text⟩ = .ok v next ↔
      (choice rs).run ⟨offset, '#' :: text⟩ = .ok v next := by
  have hSymbol : Refuses symbol ⟨offset, '#' :: text⟩ := refuses_symbol isInitial_sharp
  have hString : Refuses string ⟨offset, '#' :: text⟩ := refuses_string (by simp)
  exact (run_choice_of_refuses hSymbol).trans (run_choice_of_refuses hString)

theorem run_character_rule {rs : List (Rule Datum)} {text : List Char} {offset : Nat} {next : Cursor}
    {ch : Char} (h : character.run ⟨offset, '#' :: '\\' :: text⟩ = .ok (.character ch) next) :
    (choice (tokenRules ++ rs)).run ⟨offset, '#' :: '\\' :: text⟩ = .ok (.character ch) next := by
  refine run_choice_sharp.mpr ?_
  refine (run_choice_of_refuses (refuses_number_sharp (by decide) _ _).fails.attempt).mpr ?_
  refine (run_choice_of_refuses (fails_bool (not_startsWith_sharp (by decide) text)).attempt).mpr ?_
  exact run_choice_of_ok (run_attempt_of_ok h)

/-- A string ends with its closing quote, whatever follows. -/
theorem run_string_rule {w s : List Char} (h : StringBody w s) (rest : List Char) (rs : List (Rule Datum))
    (offset : Nat) :
    (choice (tokenRules ++ rs)).run ⟨offset, ('"' :: w ++ ['"']) ++ rest⟩ =
      .ok (.string (String.ofList s)) ⟨offset + ('"' :: w ++ ['"']).length, rest⟩ := by
  refine (run_choice_of_refuses (refuses_symbol ?_)).mpr (run_choice_of_ok (run_string h _ _))
  exact (by decide +kernel : isInitial '"' = false)

/-- A number ends where its digits end. -/
theorem run_number_rule {radix : Radix} (hRadix : radix ∈ radices) {ds rest : List Char} (hNe : ds ≠ [])
    (hAll : ∀ d ∈ ds, radix.isDigit d = true) (hRest : rest.head?.any radix.isDigit = false)
    (rs : List (Rule Datum)) (offset : Nat) :
    (choice (tokenRules ++ rs)).run ⟨offset, (radix.mark ++ ds) ++ rest⟩ =
      .ok (.number (positional radix.base ds)) ⟨offset + (radix.mark ++ ds).length, rest⟩ := by
  have hNumber := run_attempt_of_ok (run_number (run_integer hRadix hNe hAll hRest offset))
  obtain ⟨d, t, rfl⟩ := List.exists_cons_of_ne_nil hNe
  simp only [radices, List.mem_cons, List.not_mem_nil, or_false] at hRadix
  rcases hRadix with rfl | rfl | rfl | rfl | rfl
  · have hDigit : d.isDigit = true := hAll d List.mem_cons_self
    refine (run_choice_of_refuses (refuses_symbol ?_)).mpr
      ((run_choice_of_refuses (refuses_string ?_)).mpr (run_choice_of_ok hNumber))
    · exact isInitial_of_isDigit hDigit
    · rintro ⟨⟩
      cases hDigit
  all_goals exact run_choice_sharp.mpr (run_choice_of_ok hNumber)

theorem run_token {w rest : List Char} {v : Datum} (h : Token w v) (hRest : Delimits rest)
    (rs : List (Rule Datum)) (offset : Nat) :
    (choice (tokenRules ++ rs)).run ⟨offset, w ++ rest⟩ = .ok v ⟨offset + w.length, rest⟩ := by
  cases h with
  | symbol hw => exact run_choice_of_ok (run_symbol hw hRest.head_any_subsequent offset)
  | string hBody => exact run_string_rule hBody rest rs offset
  | number hRadix hNe hAll =>
    exact run_number_rule hRadix hNe hAll (hRest.head_any_digit hRadix) rs offset
  | yes =>
    refine run_choice_sharp.mpr ?_
    refine (run_choice_of_refuses (refuses_number_sharp (by decide) _ _).fails.attempt).mpr ?_
    exact run_choice_of_ok (run_attempt_of_ok (run_bool_true _ _))
  | no =>
    refine run_choice_sharp.mpr ?_
    refine (run_choice_of_refuses (refuses_number_sharp (by decide) _ _).fails.attempt).mpr ?_
    exact run_choice_of_ok (run_attempt_of_ok (run_bool_false _ _))
  | newline => exact run_character_rule (run_character_newline offset rest)
  | space => exact run_character_rule (run_character_space offset rest)
  | character ch => exact run_character_rule (run_character_lone ch hRest offset)

/-! ## Expressions -/

section Expressions

variable {expr : Rule Datum} {D P : List Char → Datum → Prop} {w rest : List Char} {offset : Nat}

theorem refuses_quotation {mark : Char} {c : Cursor} (h : c.rest.head? ≠ some mark) :
    Refuses (quotation mark expr) c :=
  (refuses_char h).discard.bind _

/-- Where no opener is ahead, no expression starts. -/
theorem refuses_expressionOf {c : Cursor} (h : c.rest.head?.any isOpener = false) :
    Refuses (expressionOf expr) c := by
  have hHead := head?_ne_of_not_opener h
  have hAny := @head?_any_of_not_opener _ h
  have hToken : NoToken c.rest :=
    noToken_of_head (hAny fun _ => isOpener_of_isInitial) (hAny fun _ => isOpener_of_isDigit)
      (hHead _ (by simp)) (hHead _ (by simp))
  have hVector : ¬ "#(".toList <+: c.rest := by
    rintro ⟨t, hEq⟩
    exact hHead '#' (by simp) (by rw [← hEq]; rfl)
  refine refuses_choice ?_
  show ∀ r ∈ tokenRules ++ _, Refuses r c
  rw [List.forall_mem_append]
  refine ⟨hToken.refuses, ?_⟩
  simp only [List.forall_mem_cons, List.not_mem_nil, false_imp_iff, implies_true, and_true]
  exact ⟨(refuses_quotation (hHead _ (by simp))).fails.attempt,
    refuses_quotation (hHead _ (by simp)), refuses_quotation (hHead _ (by simp)),
    ((fails_word "#(" hVector).map _ |>.bind _).attempt,
    (refuses_char (hHead _ (by simp))).discard.bind _⟩

/-- An expression that is no token is read by the alternatives after those for tokens. -/
theorem run_expressionOf_of_noToken {c next : Cursor} {v : Datum} (h : NoToken c.rest) :
    (expressionOf expr).run c = .ok v next ↔
      (choice [attempt (quoted expr), quasiquoted expr, unquoted expr, attempt (vector expr),
        parenthesized expr]).run c = .ok v next :=
  run_choice_append (by simp) h.refuses

/-- A text whose first character is a mark of quotation or an opening parenthesis. -/
theorem noToken_of_mem {ch : Char} (h : ch ∈ ['\'', '\x60', ',', '(']) (text : List Char) :
    NoToken (ch :: text) := by
  have hNone : ∀ ch ∈ ['\'', '\x60', ',', '('], isInitial ch = false ∧ ch.isDigit = false ∧
      ch ≠ '"' ∧ ch ≠ '#' :=
    Text.forall_mem_of_all (by decide +kernel)
  obtain ⟨hInitial, hDigit, hQuote, hSharp⟩ := hNone ch h
  exact noToken_of_head hInitial hDigit (by simpa using hQuote) (by simpa using hSharp)

/-- A text with an opening parenthesis first is read by the last alternative. -/
theorem run_expressionOf_open {text : List Char} {next : Cursor} {v : Datum}
    (h : (parenthesized expr).run ⟨offset, '(' :: text⟩ = .ok v next) :
    (expressionOf expr).run ⟨offset, '(' :: text⟩ = .ok v next := by
  have hVector : ¬ "#(".toList <+: '(' :: text := by simp
  refine (run_expressionOf_of_noToken (noToken_of_mem (by simp) text)).mpr ?_
  refine (run_choice_of_refuses (refuses_quotation (by simp)).fails.attempt).mpr ?_
  refine (run_choice_of_refuses (refuses_quotation (by simp))).mpr ?_
  refine (run_choice_of_refuses (refuses_quotation (by simp))).mpr ?_
  refine (run_choice_of_refuses ((fails_word "#(" hVector).map _ |>.bind _).attempt).mpr ?_
  exact run_choice_of_ok h

section Levels

variable {levels : Nat} (hAccepts : Accepts expr (DenotesWithin levels)) (hReads : expr.Reads P)

include hAccepts hReads in
/-- An expression of one level more than its parts. -/
theorem run_expressionOf {v : Datum} (h : Denotes w v) (hDepth : v.depth ≤ levels + 1)
    (hRest : Delimits rest) :
    (expressionOf expr).run ⟨offset, w ++ rest⟩ = .ok v ⟨offset + w.length, rest⟩ := by
  have hPart : ∀ {items : List Datum}, Datum.itemsDepth items ≤ levels → ∀ w v, v ∈ items →
      Denotes w v → DenotesWithin levels w v :=
    fun hItems w v hMem hDenotes => ⟨hDenotes, (Datum.itemsDepth_le_iff.mp hItems).2 v hMem⟩
  cases h with
  | token hToken => exact run_token hToken hRest _ offset
  | quote hDenotes =>
    simp only [Datum.depth, Datum.itemsDepth] at hDepth
    refine (run_expressionOf_of_noToken (noToken_of_mem (by simp) _)).mpr ?_
    exact run_choice_of_ok
      (run_attempt_of_ok (run_quotation hAccepts rfl ⟨hDenotes, by omega⟩ hRest offset))
  | quasiquote hDenotes =>
    simp only [Datum.depth, Datum.itemsDepth] at hDepth
    refine (run_expressionOf_of_noToken (noToken_of_mem (by simp) _)).mpr ?_
    refine (run_choice_of_refuses (refuses_quotation (by simp)).fails.attempt).mpr ?_
    exact run_choice_of_ok (run_quotation hAccepts rfl ⟨hDenotes, by omega⟩ hRest offset)
  | unquote hDenotes =>
    simp only [Datum.depth, Datum.itemsDepth] at hDepth
    refine (run_expressionOf_of_noToken (noToken_of_mem (by simp) _)).mpr ?_
    refine (run_choice_of_refuses (refuses_quotation (by simp)).fails.attempt).mpr ?_
    refine (run_choice_of_refuses (refuses_quotation (by simp))).mpr ?_
    exact run_choice_of_ok (run_quotation hAccepts rfl ⟨hDenotes, by omega⟩ hRest offset)
  | vector hItems =>
    simp only [Datum.depth, Nat.add_le_add_iff_right] at hDepth
    refine (run_expressionOf_of_noToken (noToken_vector _)).mpr ?_
    refine (run_choice_of_refuses (refuses_quotation (by simp)).fails.attempt).mpr ?_
    refine (run_choice_of_refuses (refuses_quotation (by simp))).mpr ?_
    refine (run_choice_of_refuses (refuses_quotation (by simp))).mpr ?_
    exact run_choice_of_ok
      (run_attempt_of_ok (run_vector hAccepts hReads (hItems.imp (hPart hDepth)) rest offset))
  | list hItems =>
    simp only [Datum.depth, Nat.add_le_add_iff_right] at hDepth
    exact run_expressionOf_open (run_list hAccepts hReads (hItems.imp (hPart hDepth)) rest offset)
  | dotted hItems hs hTail =>
    simp only [Datum.depth, Nat.add_le_add_iff_right, Nat.max_le] at hDepth
    exact run_expressionOf_open (run_dotted hAccepts hReads (hItems.imp (hPart hDepth.1)) hs
      ⟨hTail, hDepth.2⟩ rest offset)

end Levels

end Expressions

/-- What takes a single level is a token. -/
theorem Denotes.token_of_depth {w : List Char} {v : Datum} (h : Denotes w v) (hDepth : v.depth ≤ 1) :
    Token w v := by
  cases h with
  | token hToken => exact hToken
  | quote | quasiquote | unquote => simp [Datum.depth, Datum.itemsDepth] at hDepth
  | @vector _ items | @list _ items | @dotted _ _ _ items =>
    have hOne := Datum.one_le_itemsDepth items
    simp only [Datum.depth] at hDepth
    omega

/-- A text that stands for a datum of at most the given number of levels is read as the datum. -/
theorem accepts_expression (levels : Nat) :
    Accepts (expression (levels + 1)) (DenotesWithin (levels + 1)) := by
  refine ⟨?_, fun h => h.1.opens, refuses_expressionOf⟩
  induction levels with
  | zero =>
    rintro w v rest ⟨hDenotes, hDepth⟩ hRest offset
    exact run_token (hDenotes.token_of_depth hDepth) hRest _ offset
  | succ levels ih =>
    rintro w v rest ⟨hDenotes, hDepth⟩ hRest offset
    have hAccepts : Accepts (expression (levels + 1)) (DenotesWithin (levels + 1)) :=
      ⟨ih, fun h => h.1.opens, refuses_expressionOf⟩
    exact run_expressionOf hAccepts (reads_expression _) hDenotes hDepth hRest

/-- A text that stands for a datum is read as the datum, if enough levels are left and the text after it
cannot go on with it. -/
theorem run_expression {w rest : List Char} {v : Datum} {levels : Nat} (h : Denotes w v)
    (hDepth : v.depth ≤ levels) (hRest : Delimits rest) (offset : Nat) :
    (expression levels).run ⟨offset, w ++ rest⟩ = .ok v ⟨offset + w.length, rest⟩ := by
  have hOne := one_le_depth v
  obtain ⟨levels, rfl⟩ : ∃ n, levels = n + 1 := ⟨levels - 1, by omega⟩
  exact (accepts_expression levels).run ⟨h, hDepth⟩ hRest offset

end MiniScheme.Grammar
