import MiniScheme.Editor.Diagnostic
import MiniScheme.Editor.Signature
import MiniScheme.Editor.Word
import Std.Data.HashMap

/-!
# The workspace

The editor opens, changes and closes documents and asks about them. The workspace keeps the text of every
open document. Whenever the editor touches a document's text, the diagnostics of the text that is kept then
are published anew; closing a document publishes that it has none.
-/

namespace MiniScheme.Editor

/-- A position in a document, counted from zero. -/
structure Position where
  line : Nat
  character : Nat
deriving DecidableEq, Repr

/-- A diagnostic as it is published: on one character, with a number for its severity. -/
structure Marker where
  first : Position
  last : Position
  message : String
  severity : Nat
  source : String
deriving DecidableEq, Repr

/-- The number of a severity. -/
def Severity.code : Severity → Nat
  | .error => 1
  | .information => 3

def Diagnostic.marker (d : Diagnostic) : Marker where
  first := ⟨d.line, d.column⟩
  last := ⟨d.line, d.column + 1⟩
  message := d.message
  severity := d.severity.code
  source := "schemer-ls"

/-- The markers of a document of this text, read to at most the given number of levels. -/
def markersWithin (levels : Nat) (text : String) : List Marker :=
  (diagnosticsWithin levels text).map Diagnostic.marker

/-- What the editor tells or asks, with the document it is about. -/
inductive Request where
  | opened (uri text : String)
  /-- The texts after each of several changes. -/
  | changed (uri : String) (texts : List String)
  | closed (uri : String)
  | hover (uri : String) (position : Position)
  | complete (uri : String)
deriving DecidableEq, Repr

/-- The document that a request is about. -/
def Request.uri : Request → String
  | .opened uri _ => uri
  | .changed uri _ => uri
  | .closed uri => uri
  | .hover uri _ => uri
  | .complete uri => uri

/-- The answer to a request. -/
inductive Answer where
  | nothing
  | hover (contents : String)
  | completions (items : List Completion)
deriving DecidableEq, Repr

/-- The markers published for a document. -/
structure Publication where
  uri : String
  markers : List Marker
deriving DecidableEq, Repr

/-- What a request brings about, the change of the workspace apart. -/
structure Reply where
  answer : Answer
  published : List Publication
deriving DecidableEq, Repr

/-- The open documents. -/
structure Workspace where
  documents : Std.HashMap String String

namespace Workspace

def empty : Workspace := ⟨∅⟩

/-- The reply that publishes the diagnostics of a document, which has to be in the workspace. -/
def publish? (w : Workspace) (levels : Nat) (uri : String) : Option (Workspace × Reply) := do
  let text ← w.documents[uri]?
  return (w, ⟨.nothing, [⟨uri, markersWithin levels text⟩]⟩)

/-- The answer to a hover request. -/
def hover (w : Workspace) (uri : String) (position : Position) : Answer :=
  match w.documents[uri]? with
  | none => .nothing
  | some text =>
    match (wordAt text position.line position.character).bind hoverText with
    | none => .nothing
    | some contents => .hover contents

/-- One request, with documents read to at most the given number of levels. There is no outcome if the
diagnostics of a missing document are asked for. -/
def handle? (w : Workspace) (levels : Nat) : Request → Option (Workspace × Reply)
  | .opened uri text => publish? ⟨w.documents.insert uri text⟩ levels uri
  | .changed uri texts =>
    match texts.getLast? with
    | some text => publish? ⟨w.documents.insert uri text⟩ levels uri
    | none => publish? ⟨w.documents.insertIfNew uri ""⟩ levels uri
  | .closed uri => some (⟨w.documents.erase uri⟩, ⟨.nothing, [⟨uri, []⟩]⟩)
  | .hover uri position => some (w, ⟨w.hover uri position, []⟩)
  | .complete _ => some (w, ⟨.completions completions, []⟩)

/-- No request misses a document. -/
theorem isSome_handle? (w : Workspace) (levels : Nat) (request : Request) :
    (w.handle? levels request).isSome = true := by
  cases request with
  | opened uri text => simp [handle?, publish?]
  | changed uri texts =>
    cases hLast : texts.getLast? with
    | none => simp [handle?, publish?, hLast]
    | some text => simp [handle?, publish?, hLast]
  | closed | hover | complete => rfl

/-- One request, which always has an outcome. -/
def handle (w : Workspace) (levels : Nat) (request : Request) : Workspace × Reply :=
  (w.handle? levels request).get (w.isSome_handle? levels request)

/-- The workspaces and replies of a sequence of requests, one pair for each. -/
def handleAll (w : Workspace) (levels : Nat) : List Request → List (Workspace × Reply)
  | [] => []
  | request :: requests =>
    let step := w.handle levels request
    step :: step.1.handleAll levels requests

end Workspace

end MiniScheme.Editor
