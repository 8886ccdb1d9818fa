import MiniScheme.Proofs.Datum.Printed
import MiniScheme.Proofs.Grammar.Exactness
import MiniScheme.Proofs.Grammar.Fractions

/-!
# The data that can be read

A datum comes out of some text if and only if it is readable everywhere inside: the symbols are symbols of
the grammar, no number is negative, and there are no fractions, ratios and complex numbers. A character may
be any, also in a string, and vectors and dotted lists without a first item may stand anywhere.

That other data are never read is told from the grammar. For the converse every readable datum has a text
(`written`), which is not its printed form: characters and vectors have none, and strings with quotes and
dotted lists without a first item have one that is read as something else or not at all.
-/

namespace MiniScheme

/-- What a datum must be, apart from the data inside it, for some text to stand for it. -/
def Datum.Readable : Datum → Prop
  | .symbol name => Grammar.IsSymbolText name.toList
  | .number n => 0 ≤ n
  | .float _ => False
  | .ratio _ => False
  | .complex _ _ => False
  | _ => True

namespace Grammar

/-! ## What is read is readable -/

theorem Denotes.readable {w : List Char} {v : Datum} (h : Denotes w v) : v.Readable := by
  cases h with
  | token hToken =>
    cases hToken with
    | symbol hText =>
      rw [Datum.Readable, String.toList_ofList]
      exact hText
    | number => exact Int.natCast_nonneg _
    | string | yes | no | newline | space | character => trivial
  | quote | quasiquote | unquote | vector | list | dotted => trivial

theorem Denotes.forall_readable {w : List Char} {v : Datum} (h : Denotes w v) :
    ∀ x ∈ v.parts, x.Readable := by
  intro x hx
  obtain ⟨u, hDenotes⟩ := h.of_mem_parts x hx
  exact hDenotes.readable

/-! ## Strings -/

/-- A character as it is written in a string, with a backslash if it has an escape. -/
def escapedText (ch : Char) : List Char :=
  match escapes.find? (·.2 = ch) with
  | some (letter, _) => ['\\', letter]
  | none => [ch]

theorem escape_of_mem {letter ch : Char} (h : (letter, ch) ∈ escapes) : Escape letter ch := by
  simp only [escapes, List.mem_cons, Prod.mk.injEq, List.not_mem_nil, or_false] at h
  rcases h with ⟨rfl, rfl⟩ | ⟨rfl, rfl⟩ | ⟨rfl, rfl⟩ | ⟨rfl, rfl⟩ | ⟨rfl, rfl⟩
  · exact .backslash
  · exact .quote
  · exact .newline
  · exact .return
  · exact .tab

theorem stringBody_escapedText (s : List Char) : StringBody (s.flatMap escapedText) s := by
  induction s with
  | nil => exact .nil
  | cons ch s ih =>
    rw [List.flatMap_cons, escapedText]
    cases hFind : escapes.find? (·.2 = ch) with
    | some entry =>
      obtain ⟨letter, ch'⟩ := entry
      have hChar : ch' = ch := by simpa using List.find?_some hFind
      rw [← hChar]
      exact .escape (escape_of_mem (List.mem_of_find?_eq_some hFind)) ih
    | none =>
      -- a quote or a backslash would have been found
      have hNone := List.find?_eq_none.mp hFind
      refine .plain ?_ ?_ ih
      · rintro rfl
        exact hNone ('"', '"') (by simp [escapes]) (by simp)
      · rintro rfl
        exact hNone ('\\', '\\') (by simp [escapes]) (by simp)

theorem denotes_escaped (s : String) :
    Denotes ('"' :: s.toList.flatMap escapedText ++ ['"']) (.string s) := by
  have hToken := Token.string (stringBody_escapedText s.toList)
  rw [String.ofList_toList] at hToken
  exact .token hToken

end Grammar

/-! ## A text for every readable datum -/

/-- A readable datum as a text. In a dotted list the point is a word among others, so it may be the first. -/
def Datum.written : Datum → String
  | .symbol name => name
  | .number n => Numeral.decimal n
  | .string s => "\"" ++ String.ofList (s.toList.flatMap Grammar.escapedText) ++ "\""
  | .bool true => "#t"
  | .bool false => "#f"
  | .character ch => "#\\" ++ String.singleton ch
  | .list items => "(" ++ unwords (items.map written) ++ ")"
  | .dotted items tail => "(" ++ unwords (items.map written ++ [".", tail.written]) ++ ")"
  | .vector items => "#(" ++ unwords (items.map written) ++ ")"
  | _ => ""

namespace Grammar

variable {D : List Char → Datum → Prop} {items : List Datum} {words : List String}

/-- Words before a point and one more word are items that have blanks after them. -/
theorem exists_ended_unwords (h : List.Forall₂ (fun v word => D word.toList v) items words)
    (last : String) :
    ∃ w, Ended D w items ∧
      (Datum.unwords (words ++ [".", last])).toList = w ++ ('.' :: [' '] ++ last.toList) := by
  induction h with
  | nil =>
    refine ⟨[], .nil, ?_⟩
    rw [List.nil_append, toList_unwords_cons, toList_unwords_singleton]
    rfl
  | @cons v word items words hv _ ih =>
    obtain ⟨w, hItems, hText⟩ := ih
    obtain ⟨next, later, hWords⟩ : ∃ next later, words ++ [".", last] = next :: later := by
      cases words with
      | nil => exact ⟨_, _, rfl⟩
      | cons next words => exact ⟨_, _, rfl⟩
    refine ⟨word.toList ++ ([' '] ++ w), .cons hv isBlanks_space hItems, ?_⟩
    rw [List.cons_append, hWords, toList_unwords_cons, ← hWords, hText]
    simp

theorem forall₂_written (h : ∀ v ∈ items, D v.written.toList v) :
    List.Forall₂ (fun v word => D word.toList v) items (items.map Datum.written) :=
  List.forall₂_map_right_iff.mpr (List.forall₂_same.mpr h)

/-- The text written for a datum that is readable everywhere inside stands for it. -/
theorem denotes_written : ∀ v : Datum, (∀ x ∈ v.parts, x.Readable) → Denotes v.written.toList v
  | .symbol name, h => by
    rw [Datum.written]
    exact denotes_symbol (h _ (Datum.self_mem_parts (.symbol name)))
  | .number n, h => by
    have hNonneg : 0 ≤ n := h _ (Datum.self_mem_parts (.number n))
    obtain ⟨n, rfl⟩ := Int.eq_ofNat_of_zero_le hNonneg
    rw [Datum.written]
    exact denotes_decimal n
  | .string s, _ => by
    simpa [Datum.written] using denotes_escaped s
  | .bool true, _ => by
    rw [Datum.written]
    exact .token .yes
  | .bool false, _ => by
    rw [Datum.written]
    exact .token .no
  | .character ch, _ => by
    simpa [Datum.written] using Denotes.token (.character ch)
  | .list items, h => by
    have hItems : ∀ v ∈ items, Denotes v.written.toList v :=
      fun v hv => denotes_written v ((Datum.forall_parts_list.mp h).2 v hv)
    simpa [Datum.written] using Denotes.list (separated_unwords (forall₂_written hItems))
  | .vector items, h => by
    have hItems : ∀ v ∈ items, Denotes v.written.toList v :=
      fun v hv => denotes_written v ((Datum.forall_parts_vector.mp h).2 v hv)
    simpa [Datum.written] using Denotes.vector (separated_unwords (forall₂_written hItems))
  | .dotted items tail, h => by
    obtain ⟨-, hParts, hTail⟩ := Datum.forall_parts_dotted.mp h
    have hItems : ∀ v ∈ items, Denotes v.written.toList v :=
      fun v hv => denotes_written v (hParts v hv)
    obtain ⟨w, hEnded, hText⟩ := exists_ended_unwords (forall₂_written hItems) tail.written
    have hDotted := Denotes.dotted hEnded isBlanks_space (denotes_written tail hTail)
    simpa [Datum.written, hText] using hDotted
  | .float x, h => (h _ (Datum.self_mem_parts (.float x))).elim
  | .ratio q, h => (h _ (Datum.self_mem_parts (.ratio q))).elim
  | .complex re im, h => (h _ (Datum.self_mem_parts (.complex re im))).elim

/-- A datum comes out of some text if and only if it is readable everywhere inside and not too deep. The text
written for it does then, before every delimiter. -/
theorem read_from_some_text_iff (levels : Nat) (v : Datum) :
    ((∃ (text : String) (next : Cursor),
        (expression levels).run (.start text.toList) = .ok v next) ↔
      (∀ x ∈ v.parts, x.Readable) ∧ v.depth ≤ levels) ∧
    ((∀ x ∈ v.parts, x.Readable) → v.depth ≤ levels → ∀ rest, Delimits rest →
      (expression levels).run (.start (v.written.toList ++ rest)) =
        .ok v ⟨v.written.toList.length, rest⟩) := by
  have hWritten : (∀ x ∈ v.parts, x.Readable) → v.depth ≤ levels → ∀ rest, Delimits rest →
      (expression levels).run (.start (v.written.toList ++ rest)) =
        .ok v ⟨v.written.toList.length, rest⟩ := by
    intro hReadable hDepth rest hRest
    have hRun := run_expression (denotes_written v hReadable) hDepth hRest 0
    rwa [Nat.zero_add] at hRun
  refine ⟨⟨?_, ?_⟩, hWritten⟩
  · rintro ⟨text, next, hRun⟩
    obtain ⟨-, -, hDenotes, hDepth⟩ := denotes_of_run hRun
    exact ⟨hDenotes.forall_readable, hDepth⟩
  · rintro ⟨hReadable, hDepth⟩
    have hRun := hWritten hReadable hDepth [] trivial
    rw [List.append_nil] at hRun
    exact ⟨v.written, _, hRun⟩

/-- A dotted list without a first item that ends in a vector of a parenthesis and a string, and a negative
number in a list. -/
theorem read_from_some_text_iff_point :
    ((Datum.dotted [] (.vector [.character ')', .string "\"\n"])).written = "(. #(#\\) \"\\\"\\n\"))" ∧
      Delimits ")".toList ∧
      (expression 3).run (.start "(. #(#\\) \"\\\"\\n\")))".toList) =
        .ok (.dotted [] (.vector [.character ')', .string "\"\n"])) ⟨17, ")".toList⟩) ∧
    ¬ ∃ (levels : Nat) (text : String) (next : Cursor),
      (expression levels).run (.start text.toList) = .ok (.list [.number (-1)]) next := by
  have hReadable : ∀ x ∈ (Datum.dotted [] (.vector [.character ')', .string "\"\n"])).parts,
      x.Readable := by
    simp [Datum.parts, Datum.partsOf, Datum.Readable]
  have hDepth : (Datum.dotted [] (.vector [.character ')', .string "\"\n"])).depth ≤ 3 := by
    simp [Datum.depth, Datum.itemsDepth]
  have hText : (Datum.dotted [] (.vector [.character ')', .string "\"\n"])).written =
      "(. #(#\\) \"\\\"\\n\"))" := by
    simp only [Datum.written, List.map_cons, List.map_nil]
    rfl
  have hDelimits : Delimits ")".toList := .inr rfl
  refine ⟨⟨hText, hDelimits, ?_⟩, ?_⟩
  · have hRun := (read_from_some_text_iff 3 _).2 hReadable hDepth ")".toList hDelimits
    rw [hText] at hRun
    exact hRun
  · rintro ⟨levels, hRead⟩
    obtain ⟨hNegative, -⟩ := (read_from_some_text_iff levels _).1.mp hRead
    have hNonneg : (0 : Int) ≤ -1 := hNegative (.number (-1)) (by simp [Datum.parts, Datum.partsOf])
    omega

end Grammar

end MiniScheme
