import MiniScheme.Proofs.Datum.Printed
import MiniScheme.Proofs.Grammar.Exactness

/-!
# What is printed reads back

A printed form reads back as its datum, to the end, if and only if the datum is plain everywhere inside.

That a plain datum reads back is the completeness of the grammar. The converse compares two texts that
start at the same place: the printed form of a datum, and a text that is read as the datum. They are the
same text (`Fixes`). For lists this is shown from the left to the right, because every item has to end where
its printed form ends before the next one is looked at. In a string an escape would put the text read behind
the string: from then on the text owes the string some backslashes, and it never pays them back
(`not_stringBody_behind`).
-/

namespace MiniScheme.Grammar

/-! ## Blanks -/

/-- Blanks before something else are a single space if the text says so. -/
theorem isBlanks_eq_space {s r r' : List Char} (hs : IsBlanks s)
    (hr : r.head?.any Text.isBlank = false) (hr' : r'.head?.any Text.isBlank = false)
    (h : s ++ r = [' '] ++ r') : s = [' '] ∧ r = r' :=
  Text.append_inj_of_class hs.2 isBlanks_space.2 hr hr' h

/-! ## Strings -/

/-- Text that is read as a string with some backslashes more than the string has, never meets the closing
quote of the string. -/
theorem not_stringBody_behind {w s r r' : List Char} {k : Nat}
    (h : StringBody w (List.replicate (k + 1) '\\' ++ s)) : w ++ '"' :: r ≠ s ++ '"' :: r' := by
  generalize hOwed : List.replicate (k + 1) '\\' ++ s = owed at h
  induction h generalizing s k with
  | nil => simp [List.replicate_succ] at hOwed
  | plain _ hBackslash _ _ =>
    rw [List.replicate_succ, List.cons_append] at hOwed
    exact absurd (List.cons.inj hOwed).1.symm hBackslash
  | @escape letter ch w owed hEscape _ ih =>
    rw [List.replicate_succ, List.cons_append] at hOwed
    obtain ⟨rfl, hLater⟩ := List.cons.inj hOwed
    cases hEscape
    intro hEq
    -- the string goes on with the two backslashes of the escape, so one more is owed after it
    match s with
    | [] => simp at hEq
    | [ch] => simp at hEq
    | first :: second :: s =>
      simp only [List.cons_append, List.cons.injEq] at hEq
      obtain ⟨rfl, rfl, hEq⟩ := hEq
      refine ih (k := k + 1) ?_ hEq
      rw [← hLater, List.replicate_succ', List.replicate_succ', List.append_assoc, List.append_assoc]
      rfl

/-- A text that is read as a string and starts like its printed form has no escapes. -/
theorem stringBody_aligned {w s r r' : List Char} (h : StringBody w s)
    (hEq : w ++ '"' :: r = s ++ '"' :: r') : w = s ∧ '"' ∉ s ∧ '\\' ∉ s := by
  induction h with
  | nil => simp
  | plain hQuote hBackslash _ ih =>
    obtain ⟨rfl, hNoQuote, hNoBackslash⟩ := ih (List.cons.inj hEq).2
    exact ⟨rfl, List.not_mem_cons_of_ne_of_not_mem (Ne.symm hQuote) hNoQuote,
      List.not_mem_cons_of_ne_of_not_mem (Ne.symm hBackslash) hNoBackslash⟩
  | @escape letter ch w s hEscape hBody ih =>
    obtain ⟨rfl, hTail⟩ := List.cons.inj hEq
    cases hEscape
    cases s with
    | nil => simp at hTail
    | cons first s =>
      obtain ⟨rfl, hBehind⟩ := List.cons.inj hTail
      exact absurd hBehind (not_stringBody_behind (k := 0) hBody)

/-! ## Items -/

/-- The text is the only one that can be read as the datum where the text stands, and the datum is plain
everywhere inside if that is so. -/
structure Fixes (v : Datum) (t : List Char) : Prop where
  opens : ∀ {w}, Denotes w v → Opens t
  eq : ∀ {w r r'}, Denotes w v → w ++ r = t ++ r' → Delimits r → Delimits r' →
    w = t ∧ ∀ x ∈ v.parts, x.Plain

theorem Opens.unwords {word : String} (h : Opens word.toList) (words : List String) :
    Opens (Datum.unwords (word :: words)).toList := by
  cases words with
  | nil =>
    rw [toList_unwords_singleton]
    exact h
  | cons next words =>
    rw [toList_unwords_cons]
    exact h.append _

section Items

variable {items : List Datum} {words : List String} {v : Datum} {w r r' : List Char}

theorem Separated.first (h : Separated Denotes w (v :: items)) :
    ∃ u t, w = u ++ t ∧ Denotes u v := by
  cases h with
  | single hv => exact ⟨w, [], by simp, hv⟩
  | cons hv => exact ⟨_, _, rfl, hv⟩

theorem Ended.first (h : Ended Denotes w (v :: items)) : ∃ u t, w = u ++ t ∧ Denotes u v := by
  cases h with
  | cons hv => exact ⟨_, _, rfl, hv⟩

/-- An item and the blanks after it end where its word and a space end. -/
theorem item_fixed {word : String} {s : List Char} (hFixed : Fixes v word.toList)
    (hv : Denotes w v) (hs : IsBlanks s) (hr : r.head?.any Text.isBlank = false)
    (hr' : r'.head?.any Text.isBlank = false)
    (hEq : w ++ (s ++ r) = word.toList ++ ([' '] ++ r')) :
    w = word.toList ∧ s = [' '] ∧ r = r' ∧ ∀ x ∈ v.parts, x.Plain := by
  obtain ⟨rfl, hPlain⟩ := hFixed.eq hv hEq (hs.delimits _) (isBlanks_space.delimits _)
  obtain ⟨rfl, hRest⟩ := isBlanks_eq_space hs hr hr' (List.append_cancel_left hEq)
  exact ⟨rfl, rfl, hRest, hPlain⟩

/-- Items are read where their words stand, one after the other. -/
theorem separated_fixed (h : List.Forall₂ (fun v word => Fixes v word.toList) items words)
    (hItems : Separated Denotes w items)
    (hEq : w ++ ')' :: r = (Datum.unwords words).toList ++ ')' :: r') :
    w = (Datum.unwords words).toList ∧ ∀ v ∈ items, ∀ x ∈ v.parts, x.Plain := by
  induction hItems generalizing words with
  | nil =>
    cases h
    exact ⟨rfl, by simp⟩
  | single hv =>
    obtain ⟨word, words, hFixed, hNil, rfl⟩ := List.forall₂_cons_left_iff.mp h
    cases hNil
    rw [toList_unwords_singleton] at hEq ⊢
    obtain ⟨rfl, hPlain⟩ := hFixed.eq hv hEq (.inr rfl) (.inr rfl)
    exact ⟨rfl, by simpa using hPlain⟩
  | @cons w s t v v' vs hv hs hRest ih =>
    obtain ⟨word, words, hFixed, hLater, rfl⟩ := List.forall₂_cons_left_iff.mp h
    obtain ⟨next, words, hFixed', -, rfl⟩ := List.forall₂_cons_left_iff.mp hLater
    obtain ⟨u, t, rfl, hv'⟩ := hRest.first
    rw [toList_unwords_cons] at hEq ⊢
    simp only [List.append_assoc] at hEq ih
    obtain ⟨rfl, rfl, hTail, hPlain⟩ := item_fixed hFixed hv hs (hv'.opens.not_blank _)
      (((hFixed'.opens hv').unwords words).not_blank _) hEq
    obtain ⟨hText, hPlains⟩ := ih hLater hTail
    rw [hText]
    exact ⟨rfl, List.forall_mem_cons.mpr ⟨hPlain, hPlains⟩⟩

/-- The items of a dotted list are read where their words stand, and there is one at least. -/
theorem ended_fixed (h : List.Forall₂ (fun v word => Fixes v word.toList) items words)
    (hItems : Ended Denotes w items)
    (hEq : w ++ '.' :: r = ((Datum.unwords words).toList ++ [' ']) ++ '.' :: r') :
    items ≠ [] ∧ w = (Datum.unwords words).toList ++ [' '] ∧
      ∀ v ∈ items, ∀ x ∈ v.parts, x.Plain := by
  induction hItems generalizing words with
  | nil =>
    cases h
    simp [Datum.unwords] at hEq
  | @cons w s t v vs hv hs hRest ih =>
    refine ⟨by simp, ?_⟩
    obtain ⟨word, words, hFixed, hLater, rfl⟩ := List.forall₂_cons_left_iff.mp h
    cases vs with
    | nil =>
      cases hLater
      cases hRest
      rw [toList_unwords_singleton] at hEq ⊢
      simp only [List.append_assoc, List.append_nil] at hEq ⊢
      obtain ⟨rfl, rfl, -, hPlain⟩ := item_fixed hFixed hv hs rfl rfl hEq
      exact ⟨rfl, by simpa using hPlain⟩
    | cons v' vs =>
      obtain ⟨next, words, hFixed', -, rfl⟩ := List.forall₂_cons_left_iff.mp hLater
      obtain ⟨u, t, rfl, hv'⟩ := hRest.first
      rw [toList_unwords_cons] at hEq ⊢
      simp only [List.append_assoc] at hEq ih ⊢
      obtain ⟨rfl, rfl, hTail, hPlain⟩ := item_fixed hFixed hv hs (hv'.opens.not_blank _)
        (((hFixed'.opens hv').unwords words).not_blank _) hEq
      obtain ⟨-, hText, hPlains⟩ := ih hLater hTail
      rw [hText]
      exact ⟨rfl, List.forall_mem_cons.mpr ⟨hPlain, hPlains⟩⟩

end Items

/-! ## Printed forms -/

theorem fixes_symbol (name : String) : Fixes (.symbol name) name.toList := by
  have hText : ∀ {w}, Denotes w (.symbol name) → w = name.toList ∧ IsSymbolText name.toList := by
    intro w hDenotes
    cases hDenotes with
    | token hToken =>
      cases hToken with
      | symbol hw => exact ⟨String.toList_ofList.symm, by rwa [String.toList_ofList]⟩
  refine ⟨?_, ?_⟩
  · intro w hDenotes
    obtain ⟨rfl, -⟩ := hText hDenotes
    exact hDenotes.opens
  · intro w r r' hDenotes _ _ _
    obtain ⟨rfl, hSymbol⟩ := hText hDenotes
    exact ⟨rfl, by simpa [Datum.parts, Datum.Plain] using hSymbol⟩

/-- Numbers are read from their decimal texts only, neither from a marked numeral nor from one with zeros
before it. -/
theorem fixes_number (n : Int) : Fixes (.number n) (Numeral.decimal n).toList := by
  refine ⟨?_, ?_⟩
  · intro w hDenotes
    cases hDenotes with
    | token hToken =>
      cases hToken with
      | number => exact (denotes_decimal _).opens
  · intro w r r' hDenotes hEq hr hr'
    cases hDenotes with
    | token hToken =>
      cases hToken with
      | @number radix digits hRadix hNe hAll =>
        generalize positional radix.base digits = n at hEq ⊢
        have hText : (Numeral.decimal n).toList = Nat.toDigits 10 n := String.toList_ofList
        have hDigits : ∀ d ∈ Nat.toDigits 10 n, d.isDigit = true :=
          fun d hd => Numeral.isDigit_of_mem_toDigits hd
        have hMarked : ∀ {u : List Char}, '#' :: u ≠ Nat.toDigits 10 n ++ r' := by
          intro u hEq
          obtain ⟨d, ds, hCons⟩ := List.exists_cons_of_ne_nil (Nat.toDigits_ne_nil (n := n) (b := 10))
          rw [hCons] at hEq hDigits
          have hDigit := hDigits d List.mem_cons_self
          rw [← (List.cons.inj hEq).1] at hDigit
          cases hDigit
        have hDelimits := hr.head_any_digit hRadix
        have hDelimits' := hr'.head_any_digit hRadix
        rw [hText] at hEq ⊢
        simp only [radices, List.mem_cons, List.not_mem_nil, or_false] at hRadix
        rcases hRadix with rfl | rfl | rfl | rfl | rfl
        · obtain ⟨rfl, -⟩ := Text.append_inj_of_class hAll hDigits hDelimits hDelimits' hEq
          exact ⟨rfl, by simp [Datum.parts, Datum.Plain]⟩
        all_goals exact absurd hEq hMarked

theorem fixes_string (s : String) : Fixes (.string s) ('"' :: s.toList ++ ['"']) := by
  refine ⟨fun _ => isOpener_of_mem (by simp), ?_⟩
  intro w r r' hDenotes hEq _ _
  cases hDenotes with
  | token hToken =>
    cases hToken with
    | string hBody =>
      simp only [String.toList_ofList, List.cons_append, List.append_assoc, List.nil_append,
        List.cons.injEq, true_and] at hEq
      obtain ⟨rfl, hQuote, hBackslash⟩ := stringBody_aligned hBody hEq
      exact ⟨by simp, by simpa [Datum.parts, Datum.Plain] using ⟨hQuote, hBackslash⟩⟩

theorem fixes_bool {b : Bool} {t : List Char} (h : Token t (.bool b)) : Fixes (.bool b) t := by
  refine ⟨fun _ => h.opens, ?_⟩
  intro w r r' hDenotes _ _ _
  have hEq : w = t := by
    cases hDenotes with
    | token hToken =>
      cases hToken with
      | yes => cases h; rfl
      | no => cases h; rfl
  exact ⟨hEq, by simp [Datum.parts, Datum.Plain]⟩

section Lists

variable {items : List Datum} {words : List String}
  (h : List.Forall₂ (fun v word => Fixes v word.toList) items words)

include h in
theorem fixes_list : Fixes (.list items) ('(' :: (Datum.unwords words).toList ++ [')']) := by
  refine ⟨fun _ => isOpener_of_mem (by simp), ?_⟩
  intro w r r' hDenotes hEq _ _
  cases hDenotes with
  | token hToken => cases hToken
  | quote | quasiquote | unquote => simp at hEq
  | list hItems =>
    simp only [List.cons_append, List.append_assoc, List.nil_append, List.cons.injEq,
      true_and] at hEq
    obtain ⟨rfl, hPlains⟩ := separated_fixed h hItems hEq
    exact ⟨rfl, Datum.forall_parts_list.mpr ⟨trivial, hPlains⟩⟩

include h in
theorem fixes_dotted {tail : Datum} {last : List Char} (hTail : Fixes tail last) :
    Fixes (.dotted items tail)
      ('(' :: ((Datum.unwords words).toList ++ [' ']) ++ ('.' :: [' '] ++ last) ++ [')']) := by
  refine ⟨fun _ => isOpener_of_mem (by simp), ?_⟩
  intro w r r' hDenotes hEq _ _
  cases hDenotes with
  | token hToken => cases hToken
  | @dotted w s t _ _ hItems hs hDenotes =>
    have hTexts : w ++ '.' :: (s ++ (t ++ ')' :: r)) =
        ((Datum.unwords words).toList ++ [' ']) ++ '.' :: ([' '] ++ (last ++ ')' :: r')) := by
      simpa using hEq
    obtain ⟨hNe, rfl, hPlains⟩ := ended_fixed h hItems hTexts
    obtain ⟨-, hAfterDot⟩ := List.cons.inj (List.append_cancel_left hTexts)
    obtain ⟨rfl, hLast⟩ := isBlanks_eq_space hs (hDenotes.opens.not_blank _)
      ((hTail.opens hDenotes).not_blank _) hAfterDot
    obtain ⟨rfl, hPlain⟩ := hTail.eq hDenotes hLast (.inr rfl) (.inr rfl)
    exact ⟨rfl, Datum.forall_parts_dotted.mpr ⟨hNe, hPlains, hPlain⟩⟩

end Lists

/-- A printed form is the only text that can be read as its datum where it stands. -/
theorem fixes_of_print {levels : Nat} {v : Datum} {t : String}
    (h : v.printWithin levels = .ok t) : Fixes v t.toList := by
  induction levels generalizing v t with
  | zero => cases h
  | succ levels ih =>
    cases v with
    | symbol name =>
      cases h
      exact fixes_symbol t
    | number n =>
      cases h
      exact fixes_number n
    | string s =>
      cases h
      simpa using fixes_string s
    | bool b =>
      cases b with
      | true =>
        cases h
        exact fixes_bool .yes
      | false =>
        cases h
        exact fixes_bool .no
    | list items =>
      obtain ⟨words, hWords, hText⟩ := print_list h
      rw [hText]
      exact fixes_list (hWords.imp fun v word hWord => ih hWord)
    | dotted items tail =>
      obtain ⟨words, last, hWords, hLast, hText⟩ := print_dotted h
      rw [hText]
      exact fixes_dotted (hWords.imp fun v word hWord => ih hWord) (ih hLast)
    | character | float | ratio | complex | vector => cases h

/-- A printed form stands for its datum if and only if the datum is plain everywhere inside. -/
theorem denotes_print_iff {levels : Nat} {v : Datum} {t : String}
    (h : v.printWithin levels = .ok t) : Denotes t.toList v ↔ ∀ x ∈ v.parts, x.Plain := by
  refine ⟨fun hDenotes => ?_, denotes_of_print h⟩
  have hEnd : Delimits [] := trivial
  exact ((fixes_of_print h).eq hDenotes rfl hEnd hEnd).2

/-- The printed form of a datum is read as the datum, to the end, if and only if everywhere inside it the
symbols are symbols of the grammar, the numbers are not negative, the strings have neither quotes nor
backslashes and the dotted lists have items before the dot. Reading needs enough levels for it. -/
theorem print_reads_back_iff {printLevels levels : Nat} {v : Datum} {t : String}
    (h : v.printWithin printLevels = .ok t) :
    (expression levels).run (.start t.toList) = .ok v ⟨t.toList.length, []⟩ ↔
      (∀ x ∈ v.parts, x.Plain) ∧ v.depth ≤ levels := by
  rw [run_whole_iff, denotes_print_iff h]

/-- A dotted list reads back, and a string of two backslashes does not. -/
theorem print_reads_back_iff_dotted :
    ((Datum.dotted [.symbol "a", .list []] (.string "b")).printWithin 2 = .ok "(a () . \"b\")" ∧
      (expression 3).run (.start "(a () . \"b\")".toList) =
        .ok (.dotted [.symbol "a", .list []] (.string "b")) ⟨12, []⟩) ∧
    (Datum.string "\\\\").printWithin 1 = .ok "\"\\\\\"" ∧
      (expression 1).run (.start "\"\\\\\"".toList) ≠ .ok (.string "\\\\") ⟨4, []⟩ := by
  have hDotted : (Datum.dotted [.symbol "a", .list []] (.string "b")).printWithin 2 =
      .ok "(a () . \"b\")" := by
    rfl
  have hString : (Datum.string "\\\\").printWithin 1 = .ok "\"\\\\\"" := by
    rfl
  refine ⟨⟨hDotted, (print_reads_back_iff hDotted).mpr ⟨?_, ?_⟩⟩, hString, ?_⟩
  · have hSymbol : IsSymbolText "a".toList := ⟨by decide +kernel, by simp⟩
    simpa [Datum.parts, Datum.partsOf, Datum.Plain] using hSymbol
  · simp [Datum.depth, Datum.itemsDepth]
  · intro hRun
    have hPlain := ((print_reads_back_iff hString).mp hRun).1 _ (Datum.self_mem_parts _)
    simp [Datum.Plain] at hPlain

end MiniScheme.Grammar
