import MiniScheme.Arithmetic.Operator
import MiniScheme.Proofs.Datum.Printed

/-!
# Which texts start with an integer

A text starts with an integer if it can be laid out as blanks, a sign, a literal and a rest (`Layout`). The
literal has all digits that stand there, so what may follow it is limited: no further digit, and after decimal
digits nothing that would make them a part of another number. The zero before a mark is such a case: with a
digit of the marked base behind it the mark belongs to the literal, and without one it does not.

The integer of a text is the one of its layout, and a text has one layout at most
(`leadingInteger_iff_layout`).
-/

namespace MiniScheme

theorem Numeral.toList_toString_negSucc (n : Nat) :
    (toString (Int.negSucc n)).toList = '-' :: Nat.toDigits 10 (n + 1) := by
  rw [← Numeral.decimal_eq_toString, Numeral.decimal]
  simp

namespace LeadingInteger

open Grammar (positional)

/-! ## Literals -/

/-- One or more digits, and none after them. -/
structure IsNumeral (isDigit : Char → Bool) (digits rest : List Char) : Prop where
  ne_nil : digits ≠ []
  digits : ∀ d ∈ digits, isDigit d = true
  stops : rest.head?.any isDigit = false

/-- A base other than ten: the letters that mark it after a zero, its digits and its size. -/
structure MarkedBase where
  marks : List Char
  isDigit : Char → Bool
  size : Nat

/-- The bases sixteen and eight. -/
def markedBases : List MarkedBase :=
  [⟨['x', 'X'], Numeral.isHexDigit, 16⟩, ⟨['o', 'O'], Numeral.isOctalDigit, 8⟩]

/-- A mark and a digit, to which a zero may belong. -/
inductive StartsMarked : List Char → Prop
  | intro {base : MarkedBase} {mark d : Char} {rest : List Char} : base ∈ markedBases →
      mark ∈ base.marks → base.isDigit d = true → StartsMarked (mark :: d :: rest)

/-- A fraction or an exponent, to which decimal digits may belong. -/
inductive StartsInexact : List Char → Prop
  | fraction {d : Char} {rest : List Char} : d.isDigit = true → StartsInexact ('.' :: d :: rest)
  | exponent {e d : Char} {rest : List Char} : e ∈ ['e', 'E'] → d.isDigit = true →
      StartsInexact (e :: d :: rest)
  | signed {e sign d : Char} {rest : List Char} : e ∈ ['e', 'E'] → sign ∈ ['+', '-'] →
      d.isDigit = true → StartsInexact (e :: sign :: d :: rest)

/-- The literal of a natural number, before a rest that does not belong to it. -/
inductive Literal : List Char → List Char → Nat → Prop
  | marked {base : MarkedBase} {mark : Char} {digits rest : List Char} : base ∈ markedBases →
      mark ∈ base.marks → IsNumeral base.isDigit digits rest →
      Literal ('0' :: mark :: digits) rest (positional base.size digits)
  | decimal {digits rest : List Char} : IsNumeral Char.isDigit digits rest → ¬ StartsInexact rest →
      (digits = ['0'] → ¬ StartsMarked rest) → Literal digits rest (positional 10 digits)

theorem isNumeral_iff {p : Char → Bool} {cs digits rest : List Char} :
    cs = digits ++ rest ∧ IsNumeral p digits rest ↔
      digits ≠ [] ∧ cs.takeWhile p = digits ∧ cs.dropWhile p = rest := by
  rw [← Text.cut_iff]
  constructor
  · rintro ⟨hText, h⟩
    exact ⟨h.ne_nil, hText, h.digits, h.stops⟩
  · rintro ⟨hNe, hText, hDigits, hStops⟩
    exact ⟨hText, hNe, hDigits, hStops⟩

theorem IsNumeral.unique {p : Char → Bool} {digits digits' rest rest' : List Char}
    (h : IsNumeral p digits rest) (h' : IsNumeral p digits' rest')
    (hText : digits ++ rest = digits' ++ rest') : digits = digits' ∧ rest = rest' :=
  Text.append_inj_of_class h.digits h'.digits h.stops h'.stops hText

/-! ## Digits and marks -/

theorem digitRun_eq_some_iff {p : Char → Bool} {cs digits : List Char} :
    digitRun p cs = some digits ↔ ∃ rest, cs = digits ++ rest ∧ IsNumeral p digits rest := by
  simp only [isNumeral_iff]
  unfold digitRun
  cases hRun : cs.takeWhile p with
  | nil =>
    simp only [reduceCtorEq, false_iff]
    rintro ⟨rest, hNe, rfl, -⟩
    exact hNe rfl
  | cons d ds =>
    simp only [Option.some.injEq]
    constructor
    · rintro rfl
      exact ⟨cs.dropWhile p, List.cons_ne_nil d ds, rfl, rfl⟩
    · rintro ⟨rest, -, rfl, -⟩
      rfl

theorem marked_eq_some_iff {marks : List Char} {p : Char → Bool} {cs digits : List Char} :
    marked marks p cs = some digits ↔
      ∃ mark ∈ marks, ∃ rest, cs = '0' :: mark :: (digits ++ rest) ∧ IsNumeral p digits rest := by
  constructor
  · intro h
    unfold marked at h
    split at h
    · rename_i mark cs
      split at h
      · rename_i hMark
        obtain ⟨rest, rfl, hNumeral⟩ := digitRun_eq_some_iff.mp h
        exact ⟨mark, hMark, rest, rfl, hNumeral⟩
      · cases h
    · cases h
  · rintro ⟨mark, hMark, rest, rfl, hNumeral⟩
    rw [marked, if_pos hMark]
    exact digitRun_eq_some_iff.mpr ⟨rest, rfl, hNumeral⟩

/-- With a mark and a digit behind it a zero has a numeral in the marked base. -/
theorem exists_marked {base : MarkedBase} {mark d : Char} {rest : List Char} (hMark : mark ∈ base.marks)
    (hd : base.isDigit d = true) :
    ∃ digits, marked base.marks base.isDigit ('0' :: mark :: d :: rest) = some digits := by
  rw [marked, if_pos hMark, digitRun, List.takeWhile_cons, if_pos hd]
  exact ⟨_, rfl⟩

theorem startsWithDigit_iff {cs : List Char} :
    startsWithDigit cs = true ↔ ∃ d rest, cs = d :: rest ∧ d.isDigit = true := by
  cases cs with
  | nil => simp [startsWithDigit]
  | cons d rest => simp [startsWithDigit]

theorem isInexactTail_iff {cs : List Char} : isInexactTail cs = true ↔ StartsInexact cs := by
  constructor
  · intro h
    unfold isInexactTail at h
    split at h
    · obtain ⟨d, rest, rfl, hd⟩ := startsWithDigit_iff.mp h
      exact .fraction hd
    · rename_i e cs _
      rw [Bool.and_eq_true, Bool.or_eq_true, beq_iff_eq, beq_iff_eq] at h
      obtain ⟨he, hRest⟩ := h
      have he' : e ∈ ['e', 'E'] := by simpa using he
      split at hRest
      · rename_i s more
        split at hRest
        · rename_i hSign
          obtain ⟨d, rest, rfl, hd⟩ := startsWithDigit_iff.mp hRest
          exact .signed he' (by simpa using hSign) hd
        · exact .exponent he' hRest
      · cases hRest
    · cases h
  · intro h
    cases h with
    | fraction hd => exact hd
    | @exponent e d rest he hd =>
      have hNoSign : ¬ (d = '+' ∨ d = '-') := by
        rintro (rfl | rfl) <;> cases hd
      rcases List.mem_pair.mp he with rfl | rfl
      · simp [isInexactTail, hNoSign, hd]
      · simp [isInexactTail, hNoSign, hd]
    | @signed e sign d rest he hSign hd =>
      have hSign' : sign = '+' ∨ sign = '-' := List.mem_pair.mp hSign
      rcases List.mem_pair.mp he with rfl | rfl
      · simp [isInexactTail, hSign', startsWithDigit, hd]
      · simp [isInexactTail, hSign', startsWithDigit, hd]

/-! ## Unsigned numbers -/

theorem isHexDigit_of_mem_markedBases {base : MarkedBase} (hBase : base ∈ markedBases) {d : Char}
    (hd : base.isDigit d = true) : Numeral.isHexDigit d = true := by
  rcases List.mem_pair.mp hBase with rfl | rfl
  · exact hd
  · have hRadix : ⟨['#', 'o'], Numeral.isOctalDigit, 8⟩ ∈ Grammar.radices := by simp [Grammar.radices]
    exact Grammar.isHexDigit_of_mem_radices hRadix hd

theorem value_decimal {digits : List Char} (h : ∀ d ∈ digits, d.isDigit = true) :
    Numeral.value 10 digits = positional 10 digits := by
  have hRadix : ⟨[], Char.isDigit, 10⟩ ∈ Grammar.radices := by simp [Grammar.radices]
  exact Grammar.value_of_mem_radices hRadix h

theorem decimal_eq_some_iff {cs : List Char} {n : Nat} :
    decimal cs = some n ↔ ∃ digits rest, cs = digits ++ rest ∧ IsNumeral Char.isDigit digits rest ∧
      ¬ StartsInexact rest ∧ positional 10 digits = n := by
  have hRest : ∀ {digits rest : List Char}, cs = digits ++ rest → IsNumeral Char.isDigit digits rest →
      cs.dropWhile Char.isDigit = rest := fun hText h => (isNumeral_iff.mp ⟨hText, h⟩).2.2
  unfold decimal
  constructor
  · intro h
    obtain ⟨digits, hRun, hValue⟩ := Option.bind_eq_some_iff.mp h
    obtain ⟨rest, hText, hNumeral⟩ := digitRun_eq_some_iff.mp hRun
    rw [hRest hText hNumeral] at hValue
    split at hValue
    · cases hValue
    · rename_i hExact
      rw [isInexactTail_iff] at hExact
      exact ⟨digits, rest, hText, hNumeral, hExact,
        (value_decimal hNumeral.digits).symm.trans (Option.some.inj hValue)⟩
  · rintro ⟨digits, rest, hText, hNumeral, hExact, rfl⟩
    refine Option.bind_eq_some_iff.mpr ⟨digits, digitRun_eq_some_iff.mpr ⟨rest, hText, hNumeral⟩, ?_⟩
    rw [hRest hText hNumeral, if_neg (fun h => hExact (isInexactTail_iff.mp h)),
      value_decimal hNumeral.digits]

/-- Marked bases are tried one after the other, and then decimal digits. -/
theorem unsigned_eq (cs : List Char) :
    unsigned cs = (markedBases.findSome? fun base =>
      (marked base.marks base.isDigit cs).map (Numeral.value base.size)).or (decimal cs) := by
  unfold unsigned markedBases
  simp only [List.findSome?_cons, List.findSome?_nil]
  cases marked ['x', 'X'] Numeral.isHexDigit cs with
  | some digits => rfl
  | none => cases marked ['o', 'O'] Numeral.isOctalDigit cs <;> rfl

theorem exists_literal {cs : List Char} {n : Nat} (h : unsigned cs = some n) :
    ∃ literal rest, cs = literal ++ rest ∧ Literal literal rest n := by
  rw [unsigned_eq] at h
  cases hMarked : markedBases.findSome? fun base =>
      (marked base.marks base.isDigit cs).map (Numeral.value base.size) with
  | some k =>
    rw [hMarked, Option.some_or] at h
    cases h
    obtain ⟨base, hBase, hSome⟩ := List.exists_of_findSome?_eq_some hMarked
    obtain ⟨digits, hDigits, rfl⟩ := Option.map_eq_some_iff.mp hSome
    obtain ⟨mark, hMark, rest, rfl, hNumeral⟩ := marked_eq_some_iff.mp hDigits
    rw [Grammar.value_eq_positional fun d hd =>
      isHexDigit_of_mem_markedBases hBase (hNumeral.digits d hd)]
    exact ⟨_, rest, rfl, .marked hBase hMark hNumeral⟩
  | none =>
    rw [hMarked, Option.none_or] at h
    obtain ⟨digits, rest, rfl, hNumeral, hExact, rfl⟩ := decimal_eq_some_iff.mp h
    refine ⟨digits, rest, rfl, .decimal hNumeral hExact ?_⟩
    rintro rfl ⟨hBase, hMark, hd⟩
    obtain ⟨ds, hSome⟩ := exists_marked hMark hd
    have hNone := List.findSome?_eq_none_iff.mp hMarked _ hBase
    rw [Option.map_eq_none_iff] at hNone
    cases hNone.symm.trans hSome

/-! ## One literal -/

theorem not_digit_of_mark {base : MarkedBase} (hBase : base ∈ markedBases) {mark : Char}
    (hMark : mark ∈ base.marks) : mark.isDigit = false := by
  have hAll : ∀ base ∈ markedBases, ∀ mark ∈ base.marks, mark.isDigit = false := by
    simp [markedBases]
  exact hAll base hBase mark hMark

theorem eq_of_mark {base base' : MarkedBase} (hBase : base ∈ markedBases) (hBase' : base' ∈ markedBases)
    {mark : Char} (hMark : mark ∈ base.marks) (hMark' : mark ∈ base'.marks) : base = base' := by
  have hApart : ∀ mark ∈ ['x', 'X'], mark ∉ ['o', 'O'] := Text.forall_mem_of_all (by decide)
  rcases List.mem_pair.mp hBase with rfl | rfl
  · rcases List.mem_pair.mp hBase' with rfl | rfl
    · rfl
    · exact absurd hMark' (hApart mark hMark)
  · rcases List.mem_pair.mp hBase' with rfl | rfl
    · exact absurd hMark (hApart mark hMark')
    · rfl

/-- Decimal digits where a marked numeral stands are its zero alone. -/
theorem IsNumeral.startsMarked {base : MarkedBase} {mark : Char} {digits rest ds r : List Char}
    (h : IsNumeral Char.isDigit ds r) (hBase : base ∈ markedBases) (hMark : mark ∈ base.marks)
    (hNumeral : IsNumeral base.isDigit digits rest)
    (hText : '0' :: mark :: digits ++ rest = ds ++ r) : ds = ['0'] ∧ StartsMarked r := by
  obtain ⟨-, hDigits, hRest⟩ := isNumeral_iff.mp ⟨hText, h⟩
  have hZero : '0'.isDigit = true := rfl
  have hNot : ¬ mark.isDigit = true := by simp [not_digit_of_mark hBase hMark]
  rw [List.cons_append, List.cons_append, List.takeWhile_cons_of_pos hZero,
    List.takeWhile_cons_of_neg hNot] at hDigits
  rw [List.cons_append, List.cons_append, List.dropWhile_cons_of_pos hZero,
    List.dropWhile_cons_of_neg hNot] at hRest
  obtain ⟨d, digits, rfl⟩ := List.exists_cons_of_ne_nil hNumeral.ne_nil
  rw [← hDigits, ← hRest]
  exact ⟨rfl, .intro hBase hMark (hNumeral.digits d List.mem_cons_self)⟩

theorem Literal.unique {w w' rest rest' : List Char} {n n' : Nat} (h : Literal w rest n)
    (h' : Literal w' rest' n') (hText : w ++ rest = w' ++ rest') : w = w' ∧ rest = rest' ∧ n = n' := by
  cases h with
  | marked hBase hMark hNumeral =>
    cases h' with
    | marked hBase' hMark' hNumeral' =>
      obtain ⟨rfl, hDigits⟩ := List.cons.inj (List.cons.inj hText).2
      cases eq_of_mark hBase hBase' hMark hMark'
      obtain ⟨rfl, rfl⟩ := hNumeral.unique hNumeral' hDigits
      exact ⟨rfl, rfl, rfl⟩
    | decimal hNumeral' _ hZero =>
      obtain ⟨hAlone, hStarts⟩ := hNumeral'.startsMarked hBase hMark hNumeral hText
      exact absurd hStarts (hZero hAlone)
  | decimal hNumeral _ hZero =>
    cases h' with
    | marked hBase' hMark' hNumeral' =>
      obtain ⟨hAlone, hStarts⟩ := hNumeral.startsMarked hBase' hMark' hNumeral' hText.symm
      exact absurd hStarts (hZero hAlone)
    | decimal hNumeral' _ _ =>
      obtain ⟨rfl, rfl⟩ := hNumeral.unique hNumeral' hText
      exact ⟨rfl, rfl, rfl⟩

theorem unsigned_ne_none {w rest : List Char} {n : Nat} (h : Literal w rest n) :
    unsigned (w ++ rest) ≠ none := by
  rw [unsigned_eq, Ne, Option.or_eq_none_iff]
  rintro ⟨hMarked, hDecimal⟩
  cases h with
  | marked hBase hMark hNumeral =>
    have hNone := List.findSome?_eq_none_iff.mp hMarked _ hBase
    have hSome := marked_eq_some_iff.mpr ⟨_, hMark, rest, rfl, hNumeral⟩
    rw [Option.map_eq_none_iff] at hNone
    cases hNone.symm.trans hSome
  | decimal hNumeral hExact _ =>
    have hSome := decimal_eq_some_iff.mpr ⟨_, rest, rfl, hNumeral, hExact, rfl⟩
    cases hDecimal.symm.trans hSome

theorem unsigned_eq_some_iff {cs : List Char} {n : Nat} :
    unsigned cs = some n ↔ ∃ literal rest, cs = literal ++ rest ∧ Literal literal rest n := by
  constructor
  · exact exists_literal
  · rintro ⟨w, rest, rfl, hLiteral⟩
    obtain ⟨k, hUnsigned⟩ := Option.ne_none_iff_exists'.mp (unsigned_ne_none hLiteral)
    obtain ⟨w', rest', hText, hLiteral'⟩ := exists_literal hUnsigned
    obtain ⟨-, -, rfl⟩ := hLiteral.unique hLiteral' hText
    exact hUnsigned

theorem Literal.head {w rest : List Char} {n : Nat} (h : Literal w rest n) :
    ∃ d more, w ++ rest = d :: more ∧ d.isDigit = true := by
  cases h with
  | marked => exact ⟨'0', _, rfl, rfl⟩
  | decimal hNumeral =>
    obtain ⟨d, digits, rfl⟩ := List.exists_cons_of_ne_nil hNumeral.ne_nil
    exact ⟨d, _, rfl, hNumeral.digits d List.mem_cons_self⟩

theorem Literal.head_ne_minus {w rest : List Char} {n : Nat} (h : Literal w rest n) :
    (w ++ rest).head? ≠ some '-' := by
  obtain ⟨d, more, hText, hd⟩ := h.head
  rw [hText, List.head?_cons]
  intro hMinus
  cases hMinus
  cases hd

theorem Literal.head_not_blank {w rest : List Char} {n : Nat} (h : Literal w rest n) :
    (w ++ rest).head?.any Text.isBlank = false := by
  obtain ⟨d, more, hText, hd⟩ := h.head
  rw [hText, List.head?_cons, Option.any_some, Bool.eq_false_iff]
  intro hBlank
  rw [Text.isDigit_of_isBlank hBlank] at hd
  cases hd

/-! ## Signs -/

theorem leadingInteger_of_minus {text : String} {cs : List Char} {n : Int}
    (h : text.toList.dropWhile Text.isBlank = '-' :: cs) :
    leadingInteger text = some n ↔
      ∃ k : Nat, unsigned (cs.dropWhile Text.isBlank) = some k ∧ n = -k := by
  simp only [leadingInteger, h]
  cases unsigned (cs.dropWhile Text.isBlank) with
  | none => simp
  | some k => simp [eq_comm]

theorem leadingInteger_of_plain {text : String} {n : Int}
    (h : (text.toList.dropWhile Text.isBlank).head? ≠ some '-') :
    leadingInteger text = some n ↔
      ∃ k : Nat, unsigned (text.toList.dropWhile Text.isBlank) = some k ∧ n = k := by
  unfold leadingInteger
  split
  · rename_i cs hMinus
    exact absurd (congrArg List.head? hMinus) h
  · cases unsigned (text.toList.dropWhile Text.isBlank) with
    | none => simp
    | some k => simp [eq_comm]

/-! ## Layouts -/

/-- The parts of a text that starts with an integer. -/
structure Layout where
  blanks : List Char
  sign : List Char
  literal : List Char
  rest : List Char

namespace Layout

def text (l : Layout) : List Char :=
  l.blanks ++ (l.sign ++ (l.literal ++ l.rest))

/-- The parts are what they should be, and the literal and the sign stand for the integer. -/
inductive StandsFor : Layout → Int → Prop
  | plain {blanks literal rest : List Char} {n : Nat} : (∀ ch ∈ blanks, Text.isBlank ch = true) →
      Literal literal rest n → StandsFor ⟨blanks, [], literal, rest⟩ n
  | negative {blanks more literal rest : List Char} {n : Nat} :
      (∀ ch ∈ blanks, Text.isBlank ch = true) → (∀ ch ∈ more, Text.isBlank ch = true) →
      Literal literal rest n → StandsFor ⟨blanks, '-' :: more, literal, rest⟩ (-n)

theorem StandsFor.blanks {l : Layout} {n : Int} (h : l.StandsFor n) :
    ∀ ch ∈ l.blanks, Text.isBlank ch = true := by
  cases h with
  | plain hBlanks _ => exact hBlanks
  | negative hBlanks _ _ => exact hBlanks

theorem StandsFor.head_not_blank {l : Layout} {n : Int} (h : l.StandsFor n) :
    (l.sign ++ (l.literal ++ l.rest)).head?.any Text.isBlank = false := by
  cases h with
  | plain _ hLiteral => exact hLiteral.head_not_blank
  | negative => exact (by decide +kernel : Text.isBlank '-' = false)

theorem StandsFor.unique {l l' : Layout} {n n' : Int} (h : l.StandsFor n) (h' : l'.StandsFor n')
    (hText : l.text = l'.text) : l = l' ∧ n = n' := by
  obtain ⟨hBlanks, hRest⟩ :=
    Text.append_inj_of_class h.blanks h'.blanks h.head_not_blank h'.head_not_blank hText
  cases h with
  | plain _ hLiteral =>
    cases h' with
    | plain _ hLiteral' =>
      cases hBlanks
      obtain ⟨rfl, rfl, rfl⟩ := hLiteral.unique hLiteral' hRest
      exact ⟨rfl, rfl⟩
    | negative => exact absurd (congrArg List.head? hRest) hLiteral.head_ne_minus
  | negative _ hMore hLiteral =>
    cases h' with
    | plain _ hLiteral' => exact absurd (congrArg List.head? hRest).symm hLiteral'.head_ne_minus
    | negative _ hMore' hLiteral' =>
      cases hBlanks
      obtain ⟨rfl, hNumber⟩ := Text.append_inj_of_class hMore hMore' hLiteral.head_not_blank
        hLiteral'.head_not_blank (List.cons.inj hRest).2
      obtain ⟨rfl, rfl, rfl⟩ := hLiteral.unique hLiteral' hNumber
      exact ⟨rfl, rfl⟩

theorem leadingInteger_text {l : Layout} {n : Int} (h : l.StandsFor n) {text : String}
    (hText : l.text = text.toList) : leadingInteger text = some n := by
  obtain ⟨-, hDrop⟩ := Text.cut_iff.mp ⟨hText.symm, h.blanks, h.head_not_blank⟩
  cases h with
  | @plain blanks literal rest n _ hLiteral =>
    have hHead : (text.toList.dropWhile Text.isBlank).head? ≠ some '-' := by
      rw [hDrop]
      exact hLiteral.head_ne_minus
    refine (leadingInteger_of_plain hHead).mpr ⟨n, ?_, rfl⟩
    rw [hDrop]
    exact unsigned_eq_some_iff.mpr ⟨literal, rest, rfl, hLiteral⟩
  | @negative blanks more literal rest n _ hMore hLiteral =>
    have hMinus : text.toList.dropWhile Text.isBlank = '-' :: (more ++ (literal ++ rest)) := hDrop
    refine (leadingInteger_of_minus hMinus).mpr ⟨n, ?_, rfl⟩
    rw [(Text.cut_iff.mp ⟨rfl, hMore, hLiteral.head_not_blank⟩).2]
    exact unsigned_eq_some_iff.mpr ⟨literal, rest, rfl, hLiteral⟩

theorem exists_layout {text : String} {n : Int} (h : leadingInteger text = some n) :
    ∃ l : Layout, l.text = text.toList ∧ l.StandsFor n := by
  have hSplit := List.takeWhile_append_dropWhile (p := Text.isBlank) (l := text.toList)
  have hBlanks : ∀ cs : List Char, ∀ ch ∈ cs.takeWhile Text.isBlank, Text.isBlank ch = true :=
    fun cs ch hch => List.mem_takeWhile_imp hch
  by_cases hHead : (text.toList.dropWhile Text.isBlank).head? = some '-'
  · obtain ⟨cs, hMinus⟩ := List.head?_eq_some_iff.mp hHead
    obtain ⟨k, hUnsigned, rfl⟩ := (leadingInteger_of_minus hMinus).mp h
    obtain ⟨literal, rest, hText, hLiteral⟩ := unsigned_eq_some_iff.mp hUnsigned
    refine ⟨_, ?_, .negative (hBlanks text.toList) (hBlanks cs) hLiteral⟩
    rw [Layout.text, ← hText, List.cons_append, List.takeWhile_append_dropWhile, ← hMinus, hSplit]
  · obtain ⟨k, hUnsigned, rfl⟩ := (leadingInteger_of_plain hHead).mp h
    obtain ⟨literal, rest, hText, hLiteral⟩ := unsigned_eq_some_iff.mp hUnsigned
    refine ⟨_, ?_, .plain (hBlanks text.toList) hLiteral⟩
    rw [Layout.text, ← hText, List.nil_append, hSplit]

end Layout

/-! ## Decimal texts -/

/-- Decimal digits at the end of a text. -/
theorem literal_toDigits (n : Nat) : Literal (Nat.toDigits 10 n) [] n := by
  have hDigits : ∀ d ∈ Nat.toDigits 10 n, d.isDigit = true :=
    fun d hd => Numeral.isDigit_of_mem_toDigits hd
  have hLiteral : Literal (Nat.toDigits 10 n) [] (positional 10 (Nat.toDigits 10 n)) :=
    .decimal ⟨Nat.toDigits_ne_nil, hDigits, rfl⟩ nofun (fun _ => nofun)
  rwa [← value_decimal hDigits, Numeral.value_toDigits] at hLiteral

/-- An integer of any size is found at the start of its decimal text. -/
theorem leadingInteger_toString (n : Int) : leadingInteger (toString n) = some n := by
  cases n with
  | ofNat n =>
    have hStands : Layout.StandsFor ⟨[], [], Nat.toDigits 10 n, []⟩ n :=
      .plain nofun (literal_toDigits n)
    refine Layout.leadingInteger_text hStands ?_
    rw [← Numeral.decimal_eq_toString, Numeral.decimal, String.toList_ofList]
    exact List.append_nil _
  | negSucc n =>
    have hStands : Layout.StandsFor ⟨[], ['-'], Nat.toDigits 10 (n + 1), []⟩ (-(n + 1 : Nat)) :=
      .negative nofun nofun (literal_toDigits (n + 1))
    refine Layout.leadingInteger_text hStands ?_
    rw [Numeral.toList_toString_negSucc]
    exact congrArg ('-' :: ·) (List.append_nil _)

end LeadingInteger

open LeadingInteger

/-- A text starts with an integer exactly if it can be laid out as blanks, a sign, a literal and a rest, and
the integer is the one that sign and literal stand for. There is one layout at most. In particular every
integer is counted as itself if it is written as a text. -/
theorem leadingInteger_iff_layout (text : String) :
    (∀ n : Int, leadingInteger text = some n ↔ ∃ l : Layout, l.text = text.toList ∧ l.StandsFor n) ∧
    (∀ (l l' : Layout) (n n' : Int), l.text = text.toList → l.StandsFor n → l'.text = text.toList →
      l'.StandsFor n' → l = l' ∧ n = n') ∧
    ∀ (levels : Nat) (n : Int), (Datum.string (toString n)).toIntegerWithin levels = .ok n := by
  refine ⟨?_, ?_, ?_⟩
  · intro n
    constructor
    · exact Layout.exists_layout
    · rintro ⟨l, hText, hStands⟩
      exact Layout.leadingInteger_text hStands hText
  · intro l l' n n' hText hStands hText' hStands'
    exact hStands.unique hStands' (hText.trans hText'.symm)
  · intro levels n
    rw [Datum.toIntegerWithin, leadingInteger_toString, Option.getD_some]

/-- Hexadecimal digits of either case go as far as they can. -/
theorem leadingInteger_iff_layout_hex :
    let layout : Layout := ⟨[' '], ['-', '\t'], ['0', 'x', '1', 'F'], ['g', '0']⟩
    layout.text = " -\t0x1Fg0".toList ∧ layout.StandsFor (-31) ∧
    leadingInteger " -\t0x1Fg0" = some (-31) ∧
    ∀ (l : Layout) (n : Int), l.text = " -\t0x1Fg0".toList → l.StandsFor n → l = layout := by
  intro layout
  have hText : layout.text = " -\t0x1Fg0".toList := by decide
  have hStands : layout.StandsFor (-31) := by
    have hNumeral : IsNumeral Numeral.isHexDigit ['1', 'F'] ['g', '0'] :=
      ⟨by decide, Text.forall_mem_of_all (by decide), by decide⟩
    refine .negative (n := 31) (Text.forall_mem_of_all (by decide)) (Text.forall_mem_of_all (by decide)) ?_
    exact .marked List.mem_cons_self List.mem_cons_self hNumeral
  obtain ⟨hReads, hUnique, -⟩ := leadingInteger_iff_layout " -\t0x1Fg0"
  refine ⟨hText, hStands, (hReads (-31)).mpr ⟨layout, hText, hStands⟩, ?_⟩
  intro l n hText' hStands'
  exact (hUnique l layout n (-31) hText' hStands' hText hStands).1

end MiniScheme
