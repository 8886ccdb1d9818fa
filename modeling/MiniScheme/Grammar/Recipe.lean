import MiniScheme.Grammar.Expression

/-!
# Recipes

A recipe names a rule of the grammar or puts rules together, as data. Run, it gives an item: a datum, a
text, a list of items, or nothing.
-/

namespace MiniScheme.Grammar

/-- What a recipe gives. -/
inductive Item where
  | datum (d : Datum)
  | text (s : String)
  | list (items : List Item)
  | nothing
deriving Inhabited

/-- The rules that have a name. -/
inductive RuleName where
  | expression | symbol | string | bool | character | quoted | quasiquoted | unquoted | vector | list
  | dottedList | parenthesized | escapedChar
  | letter | digit | hexDigit | octalDigit | sign | blank | blanks | anyChar | peek | found | fail
  | number | decimal | markedDecimal | hex | octal | binary | float | ratio | complex
deriving DecidableEq, Repr

/-- The classes of characters that a rule may forbid to follow. -/
inductive CharClass where
  | letter | alphanumeric | blank
deriving DecidableEq, Repr

def CharClass.contains : CharClass → Char → Bool
  | .letter => Text.isLetter
  | .alphanumeric => Text.isAlphanumeric
  | .blank => Text.isBlank

/-- A rule as data. -/
inductive Recipe where
  | named (name : RuleName)
  | char (ch : Char)
  | word (text : String)
  | oneOf (chars : List Char) (expected : String)
  | noneOf (chars : List Char)
  | fail (expected : String)
  | notFollowedBy (chars : CharClass)
  | attempt (recipe : Recipe)
  | optional (recipe : Recipe)
  | many (recipe : Recipe)
  | many1 (recipe : Recipe)
  | choice (recipes : List Recipe)
  | sepBy (recipe sep : Recipe)
  | endBy (recipe sep : Recipe)

/-- An expectation, unless its text is empty. -/
def expectation (text : String) : List String :=
  if text = "" then [] else [text]

namespace Item

def ofChar (ch : Char) : Item := .text (String.singleton ch)

def ofNat (n : Nat) : Item := .datum (.number n)

/-- Whether there is an item at all. -/
def isSome : Item → Bool
  | .nothing => false
  | _ => true

end Item

/-- The named rule, for expressions of at most the given number of levels. -/
def RuleName.rule (levels : Nat) : RuleName → Rule Item
  | .expression => .datum <$> Grammar.expression levels
  | .symbol => .datum <$> Grammar.symbol
  | .string => .datum <$> Grammar.string
  | .bool => .datum <$> Grammar.bool
  | .character => .datum <$> Grammar.character
  | .quoted => .datum <$> Grammar.quoted (Grammar.expression levels)
  | .quasiquoted => .datum <$> Grammar.quasiquoted (Grammar.expression levels)
  | .unquoted => .datum <$> Grammar.unquoted (Grammar.expression levels)
  | .vector => .datum <$> Grammar.vector (Grammar.expression levels)
  | .list => .datum <$> Grammar.list (Grammar.expression levels)
  | .dottedList => .datum <$> Grammar.dottedList (Grammar.expression levels)
  | .parenthesized => .datum <$> Grammar.parenthesized (Grammar.expression levels)
  | .escapedChar => Item.ofChar <$> Grammar.escapedChar
  | .letter => Item.ofChar <$> Grammar.letter
  | .digit => Item.ofChar <$> Grammar.digit
  | .hexDigit => Item.ofChar <$> Grammar.hexDigit
  | .octalDigit => Item.ofChar <$> Grammar.octalDigit
  | .sign => Item.ofChar <$> Grammar.sign
  | .blank => Item.ofChar <$> Grammar.blank
  | .blanks => (fun _ => .nothing) <$> Grammar.blanks
  | .anyChar => Item.ofChar <$> Rule.anyChar
  | .peek => (fun ch => (ch.map Item.ofChar).getD .nothing) <$> Rule.peek
  | .found => .text <$> Rule.found
  | .fail => Rule.fail []
  | .number => .datum <$> Grammar.number
  | .decimal => Item.ofNat <$> Grammar.decimal
  | .markedDecimal => Item.ofNat <$> Grammar.markedDecimal
  | .hex => Item.ofNat <$> Grammar.hex
  | .octal => Item.ofNat <$> Grammar.octal
  | .binary => Item.ofNat <$> Grammar.binary
  | .float => .datum <$> Grammar.float
  | .ratio => .datum <$> Grammar.ratio
  | .complex => .datum <$> Grammar.complex

namespace Recipe

/-- Items with a separator between them. A first item that gives nothing ends the list. -/
def separated (item sep : Rule Item) : Rule (List Item) := do
  match ← Rule.optional item with
  | none => return []
  | some first =>
    if first.isSome then
      let others ← Rule.many (do discard sep; item)
      return first :: others
    else return []

mutual

/-- The rule of a recipe, for expressions of at most the given number of levels. -/
def rule (levels : Nat) : Recipe → Rule Item
  | .named name => name.rule levels
  | .char ch => Item.ofChar <$> Rule.char ch
  | .word text => .text <$> Rule.word text
  | .oneOf chars expected => Item.ofChar <$> Rule.oneOf chars (expectation expected)
  | .noneOf chars => Item.ofChar <$> Rule.noneOf chars
  | .fail expected => Rule.fail (expectation expected)
  | .notFollowedBy chars => (fun _ => .nothing) <$> Rule.notFollowedBy chars.contains
  | .attempt recipe => Rule.attempt (rule levels recipe)
  | .optional recipe => (fun item => item.getD .nothing) <$> Rule.optional (rule levels recipe)
  | .many recipe => .list <$> Rule.many (rule levels recipe)
  | .many1 recipe => .list <$> Rule.many1 (rule levels recipe)
  | .choice recipes => Rule.choice (rules levels recipes)
  | .sepBy recipe sep => .list <$> separated (rule levels recipe) (rule levels sep)
  | .endBy recipe sep => .list <$> Rule.endBy (rule levels recipe) (rule levels sep)

/-- The rules of some recipes. -/
def rules (levels : Nat) : List Recipe → List (Rule Item)
  | [] => []
  | recipe :: recipes => rule levels recipe :: rules levels recipes

end

/-- The outcomes of some recipes on one source, each going on where the one before it stopped, whatever
became of that one. -/
def runAll (levels : Nat) (c : Cursor) : List Recipe → List (Outcome Item)
  | [] => []
  | recipe :: recipes =>
    let outcome := (recipe.rule levels).run c
    outcome :: runAll levels outcome.next recipes

end Recipe

end MiniScheme.Grammar
