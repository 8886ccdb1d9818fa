import Mathlib.Data.Nat.Digits.Defs
import MiniScheme.Grammar.Expression
import MiniScheme.Proofs.Text.Classes

/-!
# The grammar as a relation

`Denotes w v` says that the text `w`, as a whole, stands for the datum `v`. The relation knows nothing of
cursors, alternatives and their order, or of backtracking; `Token` is its part for the data that hold no
other data.

The relation is not limited in depth. `Datum.depth` is the number of levels that reading a datum takes: a
list without items counts as one level more than a token, because an item is looked for in it.
-/

namespace MiniScheme

/-! ## Depth -/

mutual

/-- The number of levels that reading the datum takes. -/
def Datum.depth : Datum → Nat
  | .list items => itemsDepth items + 1
  | .dotted items tail => max (itemsDepth items) tail.depth + 1
  | .vector items => itemsDepth items + 1
  | _ => 1

/-- The number of levels that reading the data between two parentheses takes. -/
def Datum.itemsDepth : List Datum → Nat
  | [] => 1
  | item :: items => max item.depth (itemsDepth items)

end

theorem Datum.one_le_itemsDepth (items : List Datum) : 1 ≤ Datum.itemsDepth items := by
  induction items with
  | nil => simp [Datum.itemsDepth]
  | cons item items ih => simp only [Datum.itemsDepth]; omega

theorem Datum.itemsDepth_le_iff {items : List Datum} {levels : Nat} :
    Datum.itemsDepth items ≤ levels ↔ 1 ≤ levels ∧ ∀ v ∈ items, v.depth ≤ levels := by
  induction items with
  | nil => simp [Datum.itemsDepth]
  | cons item items ih =>
    simp only [Datum.itemsDepth, Nat.max_le, ih, List.forall_mem_cons]
    exact ⟨fun ⟨h, h', h''⟩ => ⟨h', h, h''⟩, fun ⟨h', h, h''⟩ => ⟨h, h', h''⟩⟩

namespace Grammar

/-! ## Tokens -/

/-- A character that a symbol may start with. -/
def isInitial (ch : Char) : Bool :=
  Text.isLetter ch || signs.contains ch

/-- A character that a symbol may go on with. -/
def isSubsequent (ch : Char) : Bool :=
  Text.isLetter ch || ch.isDigit || signs.contains ch

/-- The text of a symbol. -/
def IsSymbolText : List Char → Prop
  | [] => False
  | ch :: others => isInitial ch = true ∧ ∀ other ∈ others, isSubsequent other = true

/-- The letters after a backslash and what they stand for. -/
inductive Escape : Char → Char → Prop
  | backslash : Escape '\\' '\\'
  | quote : Escape '"' '"'
  | newline : Escape 'n' '\n'
  | return : Escape 'r' '\r'
  | tab : Escape 't' '\t'

/-- The text between the quotes of a string, and the characters of the string. -/
inductive StringBody : List Char → List Char → Prop
  | nil : StringBody [] []
  | plain {ch : Char} {w s : List Char} : ch ≠ '"' → ch ≠ '\\' → StringBody w s →
      StringBody (ch :: w) (ch :: s)
  | escape {letter ch : Char} {w s : List Char} : Escape letter ch → StringBody w s →
      StringBody ('\\' :: letter :: w) (ch :: s)

/-- A way to write integers: a mark, the digits that follow it, and their base. -/
structure Radix where
  mark : List Char
  isDigit : Char → Bool
  base : Nat

/-- The ways to write integers. -/
def radices : List Radix := [
  ⟨[], Char.isDigit, 10⟩,
  ⟨['#', 'd'], Char.isDigit, 10⟩,
  ⟨['#', 'x'], Numeral.isHexDigit, 16⟩,
  ⟨['#', 'o'], Numeral.isOctalDigit, 8⟩,
  ⟨['#', 'b'], Numeral.isBinaryDigit, 2⟩]

/-- The digits in the order of their values. -/
def orderedDigits : List Char := "0123456789abcdef".toList

/-- The value of digits by their positions, the last one counting once. -/
def positional (base : Nat) (digits : List Char) : Nat :=
  Nat.ofDigits base (digits.reverse.map fun d => orderedDigits.idxOf d.toLower)

/-- The text stands for a datum that holds no other data. -/
inductive Token : List Char → Datum → Prop
  | symbol {w : List Char} : IsSymbolText w → Token w (.symbol (String.ofList w))
  | string {w s : List Char} : StringBody w s →
      Token ('"' :: w ++ ['"']) (.string (String.ofList s))
  | number {radix : Radix} {digits : List Char} : radix ∈ radices → digits ≠ [] →
      (∀ d ∈ digits, radix.isDigit d = true) →
      Token (radix.mark ++ digits) (.number (positional radix.base digits))
  | yes : Token ['#', 't'] (.bool true)
  | no : Token ['#', 'f'] (.bool false)
  | newline : Token ('#' :: '\\' :: "newline".toList) (.character '\n')
  | space : Token ('#' :: '\\' :: "space".toList) (.character ' ')
  | character (ch : Char) : Token ['#', '\\', ch] (.character ch)

/-! ## Data that hold data -/

/-- One or more blanks. -/
def IsBlanks (s : List Char) : Prop :=
  s ≠ [] ∧ ∀ ch ∈ s, Text.isBlank ch = true

theorem isBlanks_space : IsBlanks [' '] :=
  ⟨by decide, Text.forall_mem_of_all (by decide)⟩

/-- Items with blanks between them, and none at the ends. -/
inductive Separated (D : List Char → Datum → Prop) : List Char → List Datum → Prop
  | nil : Separated D [] []
  | single {w : List Char} {v : Datum} : D w v → Separated D w [v]
  | cons {w s t : List Char} {v v' : Datum} {vs : List Datum} : D w v → IsBlanks s →
      Separated D t (v' :: vs) → Separated D (w ++ (s ++ t)) (v :: v' :: vs)

/-- Items with blanks after each of them. -/
inductive Ended (D : List Char → Datum → Prop) : List Char → List Datum → Prop
  | nil : Ended D [] []
  | cons {w s t : List Char} {v : Datum} {vs : List Datum} : D w v → IsBlanks s →
      Ended D t vs → Ended D (w ++ (s ++ t)) (v :: vs)

/-- The text stands for the datum. -/
inductive Denotes : List Char → Datum → Prop
  | token {w : List Char} {v : Datum} : Token w v → Denotes w v
  | quote {w : List Char} {v : Datum} : Denotes w v →
      Denotes ('\'' :: w) (.list [.symbol "quote", v])
  | quasiquote {w : List Char} {v : Datum} : Denotes w v →
      Denotes ('\x60' :: w) (.list [.symbol "quasiquote", v])
  | unquote {w : List Char} {v : Datum} : Denotes w v →
      Denotes (',' :: w) (.list [.symbol "unquote", v])
  | vector {w : List Char} {items : List Datum} : Separated Denotes w items →
      Denotes ('#' :: '(' :: w ++ [')']) (.vector items)
  | list {w : List Char} {items : List Datum} : Separated Denotes w items →
      Denotes ('(' :: w ++ [')']) (.list items)
  | dotted {w s t : List Char} {items : List Datum} {tail : Datum} : Ended Denotes w items →
      IsBlanks s → Denotes t tail →
      Denotes ('(' :: w ++ ('.' :: s ++ t) ++ [')']) (.dotted items tail)

theorem Denotes.eq_of_symbol {w : List Char} {name : String} (h : Denotes w (.symbol name)) :
    w = name.toList := by
  cases h with
  | token hToken =>
    cases hToken with
    | symbol => rw [String.toList_ofList]

/-- A text that ends the token before it: nothing, or a blank or a closing parenthesis first. -/
def Delimits : List Char → Prop
  | [] => True
  | ch :: _ => Text.isBlank ch = true ∨ ch = ')'

end Grammar

end MiniScheme
