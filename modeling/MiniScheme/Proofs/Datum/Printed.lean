import MiniScheme.Datum.Printed
import MiniScheme.Proofs.Grammar.TokenContract
import MiniScheme.Proofs.Trace

/-!
# Printed forms in the grammar

A printed form is a text of the grammar if its datum is plain everywhere inside: the symbols are symbols of
the grammar, no number is negative, no string has a character that would have to be escaped, and no dotted
list lacks a first item.
-/

namespace MiniScheme

/-! ## The data inside a datum -/

mutual

/-- The datum and all data inside it. -/
def Datum.parts : Datum → List Datum
  | .list items => .list items :: partsOf items
  | .dotted items tail => .dotted items tail :: (partsOf items ++ tail.parts)
  | .vector items => .vector items :: partsOf items
  | v => [v]

/-- All items and the data inside them. -/
def Datum.partsOf : List Datum → List Datum
  | [] => []
  | item :: items => item.parts ++ partsOf items

end

namespace Datum

theorem self_mem_parts (v : Datum) : v ∈ v.parts := by
  cases v <;> simp [parts]

theorem forall_partsOf {Q : Datum → Prop} {items : List Datum} :
    (∀ x ∈ partsOf items, Q x) ↔ ∀ v ∈ items, ∀ x ∈ v.parts, Q x := by
  induction items with
  | nil => simp [partsOf]
  | cons item items ih => rw [partsOf, List.forall_mem_append, List.forall_mem_cons, ih]

theorem forall_parts_list {Q : Datum → Prop} {items : List Datum} :
    (∀ x ∈ (Datum.list items).parts, Q x) ↔
      Q (.list items) ∧ ∀ v ∈ items, ∀ x ∈ v.parts, Q x := by
  rw [parts, List.forall_mem_cons, forall_partsOf]

theorem forall_parts_dotted {Q : Datum → Prop} {items : List Datum} {tail : Datum} :
    (∀ x ∈ (Datum.dotted items tail).parts, Q x) ↔
      Q (.dotted items tail) ∧ (∀ v ∈ items, ∀ x ∈ v.parts, Q x) ∧ ∀ x ∈ tail.parts, Q x := by
  rw [parts, List.forall_mem_cons, List.forall_mem_append, forall_partsOf]

theorem forall_parts_vector {Q : Datum → Prop} {items : List Datum} :
    (∀ x ∈ (Datum.vector items).parts, Q x) ↔
      Q (.vector items) ∧ ∀ v ∈ items, ∀ x ∈ v.parts, Q x := by
  rw [parts, List.forall_mem_cons, forall_partsOf]

/-- Induction over data, with a hypothesis for every item. -/
@[elab_as_elim]
theorem induction {motive : Datum → Prop} (list : ∀ items, (∀ v ∈ items, motive v) → motive (.list items))
    (dotted : ∀ items tail, (∀ v ∈ items, motive v) → motive tail → motive (.dotted items tail))
    (vector : ∀ items, (∀ v ∈ items, motive v) → motive (.vector items))
    (single : ∀ v, v.parts = [v] → motive v) : ∀ v, motive v
  | .list items => list items fun v _ => induction list dotted vector single v
  | .dotted items tail => dotted items tail (fun v _ => induction list dotted vector single v)
      (induction list dotted vector single tail)
  | .vector items => vector items fun v _ => induction list dotted vector single v
  | .symbol name => single (.symbol name) (by simp [parts])
  | .number n => single (.number n) (by simp [parts])
  | .string s => single (.string s) (by simp [parts])
  | .bool b => single (.bool b) (by simp [parts])
  | .character ch => single (.character ch) (by simp [parts])
  | .float x => single (.float x) (by simp [parts])
  | .ratio q => single (.ratio q) (by simp [parts])
  | .complex re im => single (.complex re im) (by simp [parts])

/-- What a datum must be, apart from the data inside it, for its printed form to stand for it. -/
def Plain : Datum → Prop
  | .symbol name => Grammar.IsSymbolText name.toList
  | .number n => 0 ≤ n
  | .string s => '"' ∉ s.toList ∧ '\\' ∉ s.toList
  | .dotted items _ => items ≠ []
  | _ => True

end Datum

/-! ## Decimal texts -/

namespace Numeral

theorem isDigit_of_mem_toDigits {n : Nat} {d : Char} (h : d ∈ Nat.toDigits 10 n) :
    d.isDigit = true :=
  Nat.isDigit_of_mem_toDigits (by decide) (by decide) h

theorem value_toDigits (n : Nat) : value 10 (Nat.toDigits 10 n) = n := by
  calc value 10 (Nat.toDigits 10 n) = Nat.ofDigitChars 10 (Nat.toDigits 10 n) 0 := by
        refine List.foldl_ext _ _ _ fun m d hd => ?_
        rw [digitValue, if_pos (isDigit_of_mem_toDigits hd)]
        rfl
    _ = n := Nat.ofDigitChars_ten_toDigits

end Numeral

namespace Grammar

/-- The decimal text of a natural number stands for it. -/
theorem denotes_decimal (n : Nat) : Denotes (Numeral.decimal n).toList (.number n) := by
  have hRadix : ⟨[], Char.isDigit, 10⟩ ∈ radices := by simp [radices]
  have hDigits : ∀ d ∈ Nat.toDigits 10 n, d.isDigit = true :=
    fun d hd => Numeral.isDigit_of_mem_toDigits hd
  have hValue : positional 10 (Nat.toDigits 10 n) = n := by
    rw [← value_of_mem_radices hRadix hDigits, Numeral.value_toDigits]
  have hToken := Token.number hRadix Nat.toDigits_ne_nil hDigits
  simp only [hValue] at hToken
  have hText : (Numeral.decimal n).toList = [] ++ Nat.toDigits 10 n := String.toList_ofList
  rw [hText]
  exact .token hToken

/-! ## Symbols and strings -/

theorem denotes_symbol {name : String} (h : IsSymbolText name.toList) :
    Denotes name.toList (.symbol name) := by
  have hToken := Token.symbol h
  rw [String.ofList_toList] at hToken
  exact .token hToken

/-- A string without characters that have to be escaped is written as it is. -/
theorem denotes_string {s : String} (hQuote : '"' ∉ s.toList) (hBackslash : '\\' ∉ s.toList) :
    Denotes ('"' :: s.toList ++ ['"']) (.string s) := by
  have hBody : ∀ {cs : List Char}, '"' ∉ cs → '\\' ∉ cs → StringBody cs cs := by
    intro cs hQuote hBackslash
    induction cs with
    | nil => exact .nil
    | cons ch cs ih =>
      rw [List.mem_cons, not_or] at hQuote hBackslash
      exact .plain (Ne.symm hQuote.1) (Ne.symm hBackslash.1) (ih hQuote.2 hBackslash.2)
  have hToken := Token.string (hBody hQuote hBackslash)
  rw [String.ofList_toList] at hToken
  exact .token hToken

/-! ## Words with single spaces -/

variable {D : List Char → Datum → Prop} {items : List Datum} {words : List String}

theorem toList_unwords_singleton (word : String) : (Datum.unwords [word]).toList = word.toList := by
  rw [Datum.unwords, String.intercalate_singleton]

theorem toList_unwords_cons (word next : String) (words : List String) :
    (Datum.unwords (word :: next :: words)).toList =
      word.toList ++ ([' '] ++ (Datum.unwords (next :: words)).toList) := by
  rw [Datum.unwords, String.intercalate_cons_cons, String.toList_append, String.toList_append,
    List.append_assoc]
  rfl

theorem separated_unwords (h : List.Forall₂ (fun v word => D word.toList v) items words) :
    Separated D (Datum.unwords words).toList items := by
  induction h with
  | nil => exact .nil
  | cons hv hItems ih =>
    cases hItems with
    | nil =>
      rw [toList_unwords_singleton]
      exact .single hv
    | cons =>
      rw [toList_unwords_cons]
      exact .cons hv isBlanks_space ih

theorem ended_unwords (h : List.Forall₂ (fun v word => D word.toList v) items words)
    (hNe : items ≠ []) : Ended D ((Datum.unwords words).toList ++ [' ']) items := by
  induction h with
  | nil => exact absurd rfl hNe
  | cons hv hItems ih =>
    cases hItems with
    | nil =>
      rw [toList_unwords_singleton]
      exact .cons hv isBlanks_space .nil
    | cons =>
      rw [toList_unwords_cons, List.append_assoc, List.append_assoc]
      exact .cons hv isBlanks_space (ih (by simp))

/-! ## Printed forms -/

theorem print_list {levels : Nat} {items : List Datum} {t : String}
    (h : (Datum.list items).printWithin (levels + 1) = .ok t) :
    ∃ words, List.Forall₂ (fun v word => v.printWithin levels = .ok word) items words ∧
      t.toList = '(' :: (Datum.unwords words).toList ++ [')'] := by
  rw [Datum.printWithin] at h
  obtain ⟨words, hWords, hText⟩ := exists_of_bind_ok h
  cases hText
  exact ⟨words, forall₂_of_mapM hWords, by simp⟩

theorem print_dotted {levels : Nat} {items : List Datum} {tail : Datum} {t : String}
    (h : (Datum.dotted items tail).printWithin (levels + 1) = .ok t) :
    ∃ words last, List.Forall₂ (fun v word => v.printWithin levels = .ok word) items words ∧
      tail.printWithin levels = .ok last ∧
      t.toList = '(' :: ((Datum.unwords words).toList ++ [' ']) ++ ('.' :: [' '] ++ last.toList) ++
        [')'] := by
  rw [Datum.printWithin] at h
  obtain ⟨words, hWords, hLater⟩ := exists_of_bind_ok h
  obtain ⟨last, hLast, hText⟩ := exists_of_bind_ok hLater
  cases hText
  exact ⟨words, last, forall₂_of_mapM hWords, hLast, by simp⟩

/-- The printed form of a datum that is plain everywhere inside stands for it. -/
theorem denotes_of_print {levels : Nat} {v : Datum} {t : String} (h : v.printWithin levels = .ok t)
    (hPlain : ∀ x ∈ v.parts, x.Plain) : Denotes t.toList v := by
  induction levels generalizing v t with
  | zero => cases h
  | succ levels ih =>
    cases v with
    | symbol name =>
      cases h
      exact denotes_symbol (hPlain _ (Datum.self_mem_parts (.symbol t)))
    | number n =>
      cases h
      have hNonneg : 0 ≤ n := hPlain _ (Datum.self_mem_parts (.number n))
      obtain ⟨n, rfl⟩ := Int.eq_ofNat_of_zero_le hNonneg
      exact denotes_decimal n
    | string s =>
      cases h
      obtain ⟨hQuote, hBackslash⟩ : '"' ∉ s.toList ∧ '\\' ∉ s.toList :=
        hPlain _ (Datum.self_mem_parts (.string s))
      simp only [String.toList_append]
      exact denotes_string hQuote hBackslash
    | bool b =>
      cases b with
      | true =>
        cases h
        exact .token .yes
      | false =>
        cases h
        exact .token .no
    | list items =>
      obtain ⟨words, hWords, hText⟩ := print_list h
      rw [Datum.forall_parts_list] at hPlain
      rw [hText]
      have hItems := (List.forall₂_and_left _ _).mpr ⟨hPlain.2, hWords⟩
      exact .list (separated_unwords (hItems.imp fun v word hItem => ih hItem.2 hItem.1))
    | dotted items tail =>
      obtain ⟨words, last, hWords, hLast, hText⟩ := print_dotted h
      rw [Datum.forall_parts_dotted] at hPlain
      rw [hText]
      have hItems := (List.forall₂_and_left _ _).mpr ⟨hPlain.2.1, hWords⟩
      have hDenoted := hItems.imp fun v word hItem => ih hItem.2 hItem.1
      exact .dotted (ended_unwords hDenoted hPlain.1) isBlanks_space (ih hLast hPlain.2.2)
    | character | float | ratio | complex | vector => cases h

end Grammar

end MiniScheme
