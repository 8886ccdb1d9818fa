/-!
# Mismatches

A rule that does not match says at which offset, what would have matched there, and what stood there
instead. When several alternatives fail, the mismatch at the highest offset is kept, and mismatches at the
same offset are pooled. Nothing is expected twice.
-/

namespace MiniScheme

theorem nodup_eraseDups : ∀ texts : List String, texts.eraseDups.Nodup
  | [] => by simp
  | text :: texts => by
    rw [List.eraseDups_cons, List.nodup_cons]
    refine ⟨?_, nodup_eraseDups (texts.filter fun other => !other == text)⟩
    rw [List.mem_eraseDups]
    simp
termination_by texts => texts.length
decreasing_by
  have := List.length_filter_le (fun other => !other == text) texts
  simp only [List.length_cons]
  omega

/-- Why a rule did not match. -/
@[ext]
structure Mismatch where
  /-- The offset of the failure. -/
  position : Nat
  /-- What would have matched. -/
  expected : List String
  /-- What stood there, if that is known. -/
  unexpected : Option String
  /-- Nothing is expected twice. -/
  nodup : expected.Nodup
deriving DecidableEq, Repr

namespace Mismatch

/-- A mismatch from expectations that may repeat. -/
def of (position : Nat) (expected : List String) (unexpected : Option String) : Mismatch :=
  ⟨position, expected.eraseDups, unexpected, nodup_eraseDups expected⟩

/-- The text unless it is empty. -/
def nonempty (text : Option String) : Option String :=
  text.filter (· ≠ "")

/-- The mismatch of two tries, `earlier` before `later`. At equal offsets the expectations of both count,
and what the later try found, unless it found nothing to name. -/
def merge (later earlier : Mismatch) : Mismatch :=
  if earlier.position < later.position then later
  else if later.position < earlier.position then earlier
  else .of later.position (earlier.expected ++ later.expected)
    ((nonempty later.unexpected).or earlier.unexpected)

/-- The mismatch of a try after those that left `earlier`, if there were any. -/
def mergeOption (later : Mismatch) : Option Mismatch → Mismatch
  | none => later
  | some earlier => later.merge earlier

/-- The mismatch of several tries, the first one first. -/
def mergeAll (ms : List Mismatch) : Option Mismatch :=
  ms.foldl (fun seen m => some (m.mergeOption seen)) none

/-- Expectations in words: commas between them and `or` before the last. -/
def alternatives : List String → String
  | [] => ""
  | [only] => only
  | [first, last] => first ++ " or " ++ last
  | first :: rest => first ++ ", " ++ alternatives rest

/-- The mismatch in words, one line for what was found and one for what was expected. -/
def describe (m : Mismatch) : String :=
  let found := (nonempty m.unexpected).toList.map ("unexpected " ++ ·)
  let wanted := if m.expected = [] then [] else ["expecting " ++ alternatives m.expected]
  "\n".intercalate (found ++ wanted)

end Mismatch

end MiniScheme
