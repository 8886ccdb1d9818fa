import Mathlib.Data.List.Induction
import MiniScheme.Proofs.Editor.Handling

/-!
# What is published is current

After every step of every run from the empty workspace, the last markers that were published for a document
are those of the text that is kept of it, and a document that is not kept has no markers. This is an invariant
of single steps (`Current.handle`), so the order of the requests does not matter: a document may be changed
before it is opened, or closed twice.

The text that is kept is also told from the requests alone (`latestText`), by looking back from the latest one
to the last closing.
-/

namespace MiniScheme.Editor

variable {w : Workspace} {levels : Nat} {uri : String}

/-! ## The markers last published -/

/-- The markers last published are those of the text. Without a text there are none, whether none was
published last or nothing at all. -/
def Current (levels : Nat) (text : Option String) (published : List (List Marker)) : Prop :=
  published.getLast? = text.map (markersWithin levels) ∨ text = none ∧ published.getLast? = some []

theorem current_concat_shown (levels : Nat) (text : Option String) (published : List (List Marker)) :
    Current levels text (published ++ [shown levels text]) := by
  cases text with
  | none => exact .inr ⟨rfl, List.getLast?_concat⟩
  | some text => exact .inl List.getLast?_concat

/-- What is published stays current over a step. -/
theorem Current.handle {published : List (List Marker)} (h : Current levels w.documents[uri]? published)
    (request : Request) :
    Current levels (w.handle levels request).1.documents[uri]?
      (published ++ publishedFor uri [w.handle levels request]) := by
  rw [publishedFor_handle]
  split
  · exact current_concat_shown _ _ _
  · next hOther =>
    -- the request asks, or it is about another document
    have hSame : (w.handle levels request).1.documents[uri]? = w.documents[uri]? := by
      cases hTells : request.tells with
      | false => rw [Workspace.handle_of_asks hTells]
      | true => exact (w.updates_handle levels request uri).trans (if_neg fun hUri => hOther ⟨hTells, hUri⟩)
    rw [hSame, List.append_nil]
    exact h

theorem current_handleAll (levels : Nat) (uri : String) (requests : List Request) :
    Current levels (Workspace.empty.after levels requests).documents[uri]?
      (publishedFor uri (Workspace.empty.handleAll levels requests)) := by
  induction requests using List.reverseRecOn with
  | nil =>
    left
    simp [Workspace.after, Workspace.empty, Workspace.handleAll, publishedFor, published]
  | append_singleton requests request ih =>
    rw [Workspace.after_concat, Workspace.handleAll_concat, publishedFor_append]
    exact ih.handle request

/-! ## The text told from the requests -/

/-- The text that a request brings, if it brings one. -/
def Request.text? : Request → Option String
  | .opened _ text => some text
  | .changed _ texts => texts.getLast?
  | _ => none

/-- Whether a request opens or changes its document, with or without a text. -/
def Request.edits : Request → Bool
  | .opened _ _ => true
  | .changed _ _ => true
  | _ => false

/-- The requests about a document since it was last closed, from the latest one back. -/
def sinceClosed (uri : String) (requests : List Request) : List Request :=
  (requests.filter (·.uri = uri)).reverse.takeWhile (· ≠ .closed uri)

/-- The text of a document that was opened or changed since it was last closed: the latest that was brought
since then, or else the empty one. -/
def latestText (uri : String) (requests : List Request) : Option String :=
  if (sinceClosed uri requests).any Request.edits then
    some (((sinceClosed uri requests).findSome? Request.text?).getD "")
  else none

theorem sinceClosed_concat (uri : String) (requests : List Request) (request : Request) :
    sinceClosed uri (requests ++ [request]) =
      if request.uri = uri then
        if request = .closed uri then [] else request :: sinceClosed uri requests
      else sinceClosed uri requests := by
  unfold sinceClosed
  by_cases hUri : request.uri = uri
  · by_cases hClosed : request = .closed uri
    · simp [hClosed, Request.uri]
    · simp [hUri, hClosed]
  · simp [hUri]

theorem getD_latestText (uri : String) (requests : List Request) :
    (latestText uri requests).getD "" = ((sinceClosed uri requests).findSome? Request.text?).getD "" := by
  unfold latestText
  split
  · rfl
  · next hNone =>
    have hText : (sinceClosed uri requests).findSome? Request.text? = none := by
      rw [List.findSome?_eq_none_iff]
      intro request hMem
      have hEdits : ¬ request.edits = true := fun hEdits => hNone (List.any_eq_true.mpr ⟨_, hMem, hEdits⟩)
      cases request with
      | opened | changed => exact absurd rfl hEdits
      | closed | hover | complete => rfl
    rw [hText]

/-- A request does to the text told from the requests what it does to the text that is kept. -/
theorem latestText_concat (uri : String) (requests : List Request) (request : Request) :
    latestText uri (requests ++ [request]) =
      if request.uri = uri then request.textAfter (latestText uri requests)
      else latestText uri requests := by
  rw [latestText, sinceClosed_concat]
  by_cases hUri : request.uri = uri
  · rw [if_pos hUri, if_pos hUri]
    cases request with
    | opened other text =>
      simp [Request.edits, Request.text?, Request.textAfter, List.findSome?_cons]
    | changed other texts =>
      simp only [Request.textAfter, getD_latestText]
      cases hLast : texts.getLast? with
      | none => simp [Request.edits, Request.text?, hLast]
      | some text => simp [Request.edits, Request.text?, hLast]
    | closed other =>
      simp only [Request.uri] at hUri
      simp [hUri, Request.textAfter]
    | hover | complete =>
      simp only [reduceCtorEq, if_false, List.any_cons, List.findSome?_cons, Request.edits, Bool.false_or,
        Request.text?, Request.textAfter]
      rfl
  · rw [if_neg hUri, if_neg hUri]
    rfl

theorem documents_after (levels : Nat) (uri : String) (requests : List Request) :
    (Workspace.empty.after levels requests).documents[uri]? = latestText uri requests := by
  induction requests using List.reverseRecOn with
  | nil => simp [Workspace.after, Workspace.empty, latestText, sinceClosed]
  | append_singleton requests request ih =>
    rw [Workspace.after_concat, latestText_concat, (Workspace.updates_handle _ levels request) uri, ← ih]
    split
    · next hUri => rw [hUri]
    · rfl

/-! ## All together -/

/-- Every request of a run from the empty workspace has its step. After every step, a document that is kept has
the text that the requests give it, and what was published last for it are the diagnostics of this text; for
a document that is not kept nothing was published, or last that it has no diagnostics. Requests that ask
publish and change nothing. No request in any workspace misses a document. -/
theorem publications_match_documents (levels : Nat) (requests : List Request) :
    (Workspace.empty.handleAll levels requests).length = requests.length ∧
    (∀ n w reply, (Workspace.empty.handleAll levels requests)[n]? = some (w, reply) → ∀ uri,
      (∀ text, w.documents[uri]? = some text →
        (publishedFor uri ((Workspace.empty.handleAll levels requests).take (n + 1))).getLast? =
          some ((diagnosticsWithin levels text).map fun d =>
            { first := ⟨d.line, d.column⟩
              last := ⟨d.line, d.column + 1⟩
              message := d.message
              severity := match d.severity with
                | .error => 1
                | .information => 3
              source := "schemer-ls" })) ∧
      (w.documents[uri]? = none →
        publishedFor uri ((Workspace.empty.handleAll levels requests).take (n + 1)) = [] ∨
        (publishedFor uri ((Workspace.empty.handleAll levels requests).take (n + 1))).getLast? = some []) ∧
      w.documents[uri]? = latestText uri (requests.take (n + 1))) ∧
    (∀ (w : Workspace) (uri : String) (position : Position),
      (w.handle levels (.hover uri position)).1 = w ∧ (w.handle levels (.hover uri position)).2.published = [] ∧
      (w.handle levels (.complete uri)).1 = w ∧ (w.handle levels (.complete uri)).2.published = []) ∧
    ∀ (w : Workspace) (request : Request), w.handle? levels request = some (w.handle levels request) := by
  refine ⟨Workspace.length_handleAll _ _ _, ?_, ?_, fun w request => w.handle?_eq_some levels request⟩
  · intro n w reply hStep uri
    have hAfter := Workspace.eq_after_of_step hStep
    have hCurrent := current_handleAll levels uri (requests.take (n + 1))
    rw [← hAfter] at hCurrent
    rw [Workspace.take_handleAll]
    refine ⟨?_, ?_, ?_⟩
    · intro text hText
      rw [hText] at hCurrent
      exact hCurrent.resolve_right fun hNone => nomatch hNone.1
    · intro hNone
      rw [hNone] at hCurrent
      exact hCurrent.imp List.getLast?_eq_none_iff.mp And.right
    · rw [hAfter, documents_after]
  · intro w uri position
    have hNothing : ∀ {request : Request}, request.tells = false →
        (w.handle levels request).2.published = [] := by
      intro request hAsks
      rw [Workspace.published_handle, hAsks]
      rfl
    exact ⟨Workspace.handle_of_asks rfl, hNothing rfl, Workspace.handle_of_asks rfl, hNothing rfl⟩

/-- A document that is changed before it is opened, first and last without a text, and then closed twice. It has
an error in its second line, and another document has something after its expression. -/
theorem publications_match_documents_unopened :
    ∃ steps w reply w' reply' w'' reply'',
      steps = Workspace.empty.handleAll 3 [.changed "a" [], .changed "a" ["7", "\"\n\\q"], .hover "b" ⟨0, 0⟩,
        .changed "a" [], .opened "b" "7 8", .closed "a", .closed "a"] ∧
      steps[3]? = some (w, reply) ∧ w.documents["a"]? = some "\"\n\\q" ∧
      (publishedFor "a" (steps.take 4)).getLast? =
        some [⟨⟨1, 1⟩, ⟨1, 2⟩, "unexpected 'q'\nexpecting escape character", 1, "schemer-ls"⟩] ∧
      steps[4]? = some (w', reply') ∧ w'.documents["b"]? = some "7 8" ∧
      (publishedFor "b" (steps.take 5)).getLast? =
        some [⟨⟨0, 1⟩, ⟨0, 2⟩, "Input after the first expression is ignored", 3, "schemer-ls"⟩] ∧
      steps[6]? = some (w'', reply'') ∧ w''.documents["a"]? = none := by
  obtain ⟨-, hSteps, -, -⟩ := publications_match_documents 3 [.changed "a" [], .changed "a" ["7", "\"\n\\q"],
    .hover "b" ⟨0, 0⟩, .changed "a" [], .opened "b" "7 8", .closed "a", .closed "a"]
  obtain ⟨hCurrent, -, hText⟩ := hSteps 3 _ _ rfl "a"
  obtain ⟨hCurrent', -, hText'⟩ := hSteps 4 _ _ rfl "b"
  obtain ⟨-, -, hText''⟩ := hSteps 6 _ _ rfl "a"
  have hBroken := hText.trans (by decide : _ = some "\"\n\\q")
  have hLonger := hText'.trans (by decide : _ = some "7 8")
  exact ⟨_, _, _, _, _, _, _, rfl, rfl, hBroken, hCurrent _ hBroken, rfl, hLonger, hCurrent' _ hLonger, rfl,
    hText''.trans (by decide)⟩

end MiniScheme.Editor
