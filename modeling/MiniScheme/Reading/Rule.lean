import MiniScheme.Error

/-!
# Rules

A rule reads from a cursor and has one of three outcomes: it succeeds with a value, it does not match, or
it aborts. A mismatch leaves the cursor where the rule gave up, which is how alternatives tell a rule that
never started from one that is committed; it may be taken back by whoever tries another alternative. An
abort is taken back by nobody.
-/

namespace MiniScheme

/-- A point in a text: how much has been read, and what lies ahead. -/
structure Cursor where
  offset : Nat
  rest : List Char
deriving DecidableEq, Repr

namespace Cursor

/-- The cursor at the start of a text. -/
def start (source : List Char) : Cursor :=
  ⟨0, source⟩

/-- The character ahead, in words. -/
def found (c : Cursor) : String :=
  match c.rest with
  | [] => "end of input"
  | ch :: _ => Text.quotedChar ch

end Cursor

/-- What became of a rule, with the cursor where it stopped. -/
inductive Outcome (α : Type) where
  | ok (value : α) (next : Cursor)
  | mismatch (m : Mismatch) (next : Cursor)
  | abort (cause : Error) (next : Cursor)
deriving Repr

namespace Outcome

/-- Go on with the value of a success; any other outcome stands. -/
@[inline] def andThen {α β : Type} (o : Outcome α) (f : α → Cursor → Outcome β) : Outcome β :=
  match o with
  | .ok a c => f a c
  | .mismatch m c => .mismatch m c
  | .abort e c => .abort e c

/-- The cursor where the rule stopped. -/
def next {α : Type} : Outcome α → Cursor
  | .ok _ c => c
  | .mismatch _ c => c
  | .abort _ c => c

end Outcome

/-- A rule for reading an `α`. -/
structure Rule (α : Type) where
  run : Cursor → Outcome α

namespace Rule

variable {α β : Type}

/-! ## Sequencing -/

@[inline] protected def pure (a : α) : Rule α :=
  ⟨fun c => .ok a c⟩

@[inline] protected def bind (r : Rule α) (f : α → Rule β) : Rule β :=
  ⟨fun c => (r.run c).andThen fun a next => (f a).run next⟩

instance : Monad Rule where
  pure := Rule.pure
  bind := Rule.bind

@[simp] theorem run_pure (a : α) (c : Cursor) : (pure a : Rule α).run c = .ok a c := rfl

@[simp] theorem run_bind (r : Rule α) (f : α → Rule β) (c : Cursor) :
    (r >>= f).run c = (r.run c).andThen fun a next => (f a).run next := rfl

@[simp] theorem run_map (f : α → β) (r : Rule α) (c : Cursor) :
    (f <$> r).run c = (r.run c).andThen fun a next => .ok (f a) next := rfl

instance : LawfulMonad Rule := LawfulMonad.mk' Rule
  (fun r => by
    show Rule.mk (fun c => (r.run c).andThen fun a next => .ok a next) = r
    congr 1; funext c; cases r.run c <;> rfl)
  (fun _ _ => rfl)
  (fun r f g => by
    show Rule.mk _ = Rule.mk _
    congr 1; funext c
    show ((r.run c).andThen _).andThen _ = (r.run c).andThen _
    cases r.run c <;> rfl)

/-- A checked construction as a rule: it reads nothing, and an error aborts. -/
def ofExcept : Except Error α → Rule α
  | .ok a => ⟨fun c => .ok a c⟩
  | .error e => ⟨fun c => .abort e c⟩

/-- The rule that gives up reading for good. -/
def abort (cause : Error) : Rule α :=
  ⟨fun c => .abort cause c⟩

/-- The rule that does not match, for a reason found elsewhere. -/
def mismatch (m : Mismatch) : Rule α :=
  ⟨fun c => .mismatch m c⟩

/-- How much has been read. -/
def offset : Rule Nat :=
  ⟨fun c => .ok c.offset c⟩

/-! ## Single characters -/

/-- The character ahead, if there is one. -/
def peek : Rule (Option Char) :=
  ⟨fun c => .ok c.rest.head? c⟩

/-- What lies ahead, in words. -/
def found : Rule String :=
  ⟨fun c => .ok c.found c⟩

/-- A mismatch at the cursor. -/
def fail (expected : List String) : Rule α :=
  ⟨fun c => .mismatch (.of c.offset expected c.found) c⟩

/-- The next character, if it is one that `p` admits. -/
def satisfy (p : Char → Bool) (expected : List String) : Rule Char :=
  ⟨fun c =>
    match c.rest with
    | ch :: rest =>
      if p ch then .ok ch ⟨c.offset + 1, rest⟩ else .mismatch (.of c.offset expected c.found) c
    | [] => .mismatch (.of c.offset expected c.found) c⟩

/-- The given character. -/
def char (ch : Char) : Rule Char :=
  satisfy (· == ch) [Text.quotedChar ch]

/-- A character of the given ones. -/
def oneOf (chars : List Char) (expected : List String) : Rule Char :=
  satisfy chars.contains expected

/-- A character other than the given ones. -/
def noneOf (chars : List Char) : Rule Char :=
  satisfy (fun ch => !chars.contains ch) []

/-- Any character. -/
def anyChar : Rule Char :=
  satisfy (fun _ => true) ["any character"]

/-- Succeeds, reading nothing, unless the character ahead is one that `p` admits. -/
def notFollowedBy (p : Char → Bool) : Rule Unit :=
  ⟨fun c =>
    match c.rest with
    | ch :: _ => if p ch then .mismatch (.of c.offset [] (Text.quotedChar ch)) c else .ok () c
    | [] => .ok () c⟩

/-! ## Words -/

/-- The cursor after as much of `word` as lies ahead, and whether that is all of it. -/
def advance : List Char → Cursor → Cursor × Bool
  | [], c => (c, true)
  | ch :: word, c =>
    match c.rest with
    | [] => (c, false)
    | head :: rest => if head = ch then advance word ⟨c.offset + 1, rest⟩ else (c, false)

/-- The given word. A mismatch is reported where the word should begin, but the part of it that was there
has been read. -/
def word (text : String) : Rule String :=
  ⟨fun c =>
    match advance text.toList c with
    | (next, true) => .ok text next
    | (next, false) => .mismatch (.of c.offset [Text.quoted text] next.found) next⟩

/-! ## Alternatives -/

/-- The rule, with the cursor put back if it does not match. -/
def attempt (r : Rule α) : Rule α :=
  ⟨fun c =>
    match r.run c with
    | .mismatch m _ => .mismatch m c
    | o => o⟩

/-- The alternatives in order, after earlier ones left the mismatch `seen`. -/
def choiceFrom (c : Cursor) : Option Mismatch → List (Rule α) → Outcome α
  | seen, [] => .mismatch (seen.getD (.of c.offset [] c.found)) c
  | seen, r :: rs =>
    match r.run c with
    | .mismatch m next =>
      if next.offset = c.offset then choiceFrom c (some (m.mergeOption seen)) rs
      else .mismatch (m.mergeOption seen) next
    | o => o

/-- The first alternative that matches. One that fails after reading something ends the choice. -/
def choice (rs : List (Rule α)) : Rule α :=
  ⟨fun c => choiceFrom c none rs⟩

/-- The rule, or nothing if it does not match and has read nothing. -/
def optional (r : Rule α) : Rule (Option α) :=
  ⟨fun c =>
    match r.run c with
    | .ok a next => .ok (some a) next
    | .mismatch m next => if next.offset = c.offset then .ok none next else .mismatch m next
    | .abort e next => .abort e next⟩

/-! ## Repetition -/

/-- The rule as often as it matches. A round that fails after reading something fails the whole, and a round
that reads nothing is the last. Every other round reads a character, so the text `ahead` of the first round
holds one for each of them. -/
def repeated (r : Rule α) (ahead : List Char) (c : Cursor) : Outcome (List α) :=
  match r.run c with
  | .ok a next =>
    match ahead with
    | [] => .ok [a] next
    | _ :: ahead =>
      if c.offset < next.offset then
        (repeated r ahead next).andThen fun as last => .ok (a :: as) last
      else .ok [a] next
  | .mismatch m next => if next.offset = c.offset then .ok [] next else .mismatch m next
  | .abort e next => .abort e next

/-- The rule any number of times. -/
def many (r : Rule α) : Rule (List α) :=
  ⟨fun c => repeated r c.rest c⟩

/-- The rule once or more. -/
def many1 (r : Rule α) : Rule (List α) := do
  let first ← r
  let others ← many r
  return first :: others

/-- Items with a separator between them. -/
def sepBy (item : Rule α) (sep : Rule β) : Rule (List α) := do
  match ← optional item with
  | none => return []
  | some first =>
    let others ← many (do discard sep; item)
    return first :: others

/-- Items, each with a separator after it. -/
def endBy (item : Rule α) (sep : Rule β) : Rule (List α) :=
  many (do let a ← item; discard sep; return a)

end Rule

end MiniScheme
