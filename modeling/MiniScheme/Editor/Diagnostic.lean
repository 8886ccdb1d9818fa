import MiniScheme.Grammar.Expression
import MiniScheme.Text.Place

/-!
# Diagnostics

What an editor is told about a buffer: that its expression cannot be read, or that something follows the
expression. Lines and columns are counted from zero here.
-/

namespace MiniScheme.Editor

inductive Severity where
  | error | information
deriving DecidableEq, Repr

/-- A remark on a place in a buffer. -/
structure Diagnostic where
  line : Nat
  column : Nat
  message : String
  severity : Severity
deriving DecidableEq, Repr

/-- The remark on an offset. -/
def Diagnostic.ofOffset (source : List Char) (offset : Nat) (message : String) (severity : Severity) :
    Diagnostic :=
  let place := Text.Place.ofOffset source offset
  ⟨place.line - 1, place.column - 1, message, severity⟩

theorem Diagnostic.ofOffset_eq {source : List Char} {offset line column : Nat}
    (h : Text.Place.ofOffset source offset = ⟨line + 1, column + 1⟩) (message : String)
    (severity : Severity) :
    Diagnostic.ofOffset source offset message severity = ⟨line, column, message, severity⟩ := by
  simp only [Diagnostic.ofOffset, h, Nat.add_sub_cancel]

/-- The diagnostics of a buffer, read to at most the given number of levels. -/
def diagnosticsWithin (levels : Nat) (text : String) : List Diagnostic :=
  let source := text.toList
  match (Grammar.expression levels).run (.start source) with
  | .mismatch m _ =>
    let reason := m.describe
    [.ofOffset source m.position (if reason = "" then "No match" else reason) .error]
  | .abort e next => [.ofOffset source next.offset e.message .error]
  | .ok _ next =>
    if next.rest.all Text.isBlank then []
    else [.ofOffset source next.offset "Input after the first expression is ignored" .information]

end MiniScheme.Editor
