import MiniScheme.Editor.Workspace

/-!
# Requests and their documents

A request is about one document. What becomes of the document's text is told from the request and the text
before it (`Request.textAfter`), and all other documents stay as they are (`updates_handle`). The reply
depends on nothing else in the workspace (`reply_eq_of_documents`). What is published is about the text that
the document is left with (`published_handle`).

A run of requests is looked at in two ways: as the list of its steps, and as the workspace it ends with.
-/

namespace MiniScheme.Editor

/-! ## What a request does -/

/-- The text that a request leaves its document with, by the text before it. -/
def Request.textAfter (before : Option String) : Request → Option String
  | .opened _ text => some text
  | .changed _ texts => some (texts.getLast?.getD (before.getD ""))
  | .closed _ => none
  | .hover _ _ => before
  | .complete _ => before

/-- Whether the request tells something about its document, rather than asks about it. -/
def Request.tells : Request → Bool
  | .opened _ _ => true
  | .changed _ _ => true
  | .closed _ => true
  | .hover _ _ => false
  | .complete _ => false

/-- The markers that a document of this text is to have. A document that is not there has none. -/
def shown (levels : Nat) (text : Option String) : List Marker :=
  (text.map (markersWithin levels)).getD []

namespace Workspace

variable {w w' next : Workspace} {levels : Nat} {uri : String} {request : Request}

/-- The next workspace has this text for the document and is the same for all others. -/
def Updates (w next : Workspace) (uri : String) (text : Option String) : Prop :=
  ∀ other, next.documents[other]? = if uri = other then text else w.documents[other]?

theorem Updates.self {text : Option String} (h : w.Updates next uri text) :
    next.documents[uri]? = text :=
  (h uri).trans (if_pos rfl)

theorem updates_insert (w : Workspace) (uri text : String) :
    w.Updates ⟨w.documents.insert uri text⟩ uri (some text) := by
  intro other
  simp only [Std.HashMap.getElem?_insert, beq_iff_eq]

theorem updates_insertIfNew (w : Workspace) (uri text : String) :
    w.Updates ⟨w.documents.insertIfNew uri text⟩ uri (some (w.documents[uri]?.getD text)) := by
  intro other
  rw [Std.HashMap.getElem?_insertIfNew]
  by_cases hOther : uri = other
  · subst hOther
    by_cases hMem : uri ∈ w.documents
    · simp [hMem]
    · simp [hMem]
  · simp [hOther]

theorem updates_erase (w : Workspace) (uri : String) :
    w.Updates ⟨w.documents.erase uri⟩ uri none := by
  intro other
  simp only [Std.HashMap.getElem?_erase, beq_iff_eq]

theorem updates_refl (w : Workspace) (uri : String) : w.Updates w uri w.documents[uri]? := by
  intro other
  split
  · next hOther => rw [hOther]
  · rfl

theorem handle?_eq_some (w : Workspace) (levels : Nat) (request : Request) :
    w.handle? levels request = some (w.handle levels request) :=
  (Option.some_get _).symm

/-- The outcome where a document gets a text and is published then. -/
theorem handle_of_publish? {text : String} (hHandle : w.handle? levels request = next.publish? levels uri)
    (hNext : w.Updates next uri (some text)) :
    w.handle levels request = (next, ⟨.nothing, [⟨uri, markersWithin levels text⟩]⟩) := by
  have hPublish : next.publish? levels uri = some (next, ⟨.nothing, [⟨uri, markersWithin levels text⟩]⟩) := by
    simp [publish?, hNext.self]
  rw [handle?_eq_some, hPublish] at hHandle
  exact Option.some.inj hHandle

theorem handle_opened (w : Workspace) (levels : Nat) (uri text : String) :
    w.handle levels (.opened uri text) =
      (⟨w.documents.insert uri text⟩, ⟨.nothing, [⟨uri, markersWithin levels text⟩]⟩) :=
  handle_of_publish? rfl (w.updates_insert uri text)

/-- The last text of a change counts. Without any the document keeps its text, or is empty if it was not
there. -/
theorem handle_changed (w : Workspace) (levels : Nat) (uri : String) (texts : List String) :
    ∃ next, w.Updates next uri (some (texts.getLast?.getD (w.documents[uri]?.getD ""))) ∧
      w.handle levels (.changed uri texts) =
        (next, ⟨.nothing, [⟨uri, markersWithin levels (texts.getLast?.getD (w.documents[uri]?.getD ""))⟩]⟩) := by
  cases hLast : texts.getLast? with
  | some text =>
    have hHandle : w.handle? levels (.changed uri texts) = publish? ⟨w.documents.insert uri text⟩ levels uri := by
      simp only [handle?, hLast]
    exact ⟨_, w.updates_insert uri text, handle_of_publish? hHandle (w.updates_insert uri text)⟩
  | none =>
    have hHandle : w.handle? levels (.changed uri texts) =
        publish? ⟨w.documents.insertIfNew uri ""⟩ levels uri := by
      simp only [handle?, hLast]
    exact ⟨_, w.updates_insertIfNew uri "", handle_of_publish? hHandle (w.updates_insertIfNew uri "")⟩

/-- A request touches the text of its document and no other. -/
theorem updates_handle (w : Workspace) (levels : Nat) (request : Request) :
    w.Updates (w.handle levels request).1 request.uri (request.textAfter w.documents[request.uri]?) := by
  cases request with
  | opened uri text =>
    rw [handle_opened]
    exact w.updates_insert uri text
  | changed uri texts =>
    obtain ⟨next, hNext, hHandle⟩ := w.handle_changed levels uri texts
    rw [hHandle]
    exact hNext
  | closed uri => exact w.updates_erase uri
  | hover uri position => exact w.updates_refl uri
  | complete uri => exact w.updates_refl uri

/-- What a request publishes is about the text that its document is left with. -/
theorem published_handle (w : Workspace) (levels : Nat) (request : Request) :
    (w.handle levels request).2.published =
      if request.tells then
        [⟨request.uri, shown levels (request.textAfter w.documents[request.uri]?)⟩]
      else [] := by
  cases request with
  | opened uri text =>
    rw [handle_opened]
    rfl
  | changed uri texts =>
    obtain ⟨next, -, hHandle⟩ := w.handle_changed levels uri texts
    rw [hHandle]
    rfl
  | closed | hover | complete => rfl

/-- A request that asks changes nothing. -/
theorem handle_of_asks (h : request.tells = false) : (w.handle levels request).1 = w := by
  cases request with
  | opened | changed | closed => cases h
  | hover | complete => rfl

/-- The reply to a request depends on the text of its document alone. -/
theorem reply_eq_of_documents (h : w.documents[request.uri]? = w'.documents[request.uri]?) :
    (w.handle levels request).2 = (w'.handle levels request).2 := by
  cases request with
  | opened uri text => rw [handle_opened, handle_opened]
  | changed uri texts =>
    obtain ⟨next, -, hHandle⟩ := w.handle_changed levels uri texts
    obtain ⟨next', -, hHandle'⟩ := w'.handle_changed levels uri texts
    rw [hHandle, hHandle']
    simp only [Request.uri] at h
    rw [h]
  | closed uri => rfl
  | hover uri position =>
    have hAnswer : w.hover uri position = w'.hover uri position := by
      simp only [Request.uri] at h
      simp only [hover, h]
    exact congrArg (Reply.mk · []) hAnswer
  | complete uri => rfl

/-! ## Runs of requests -/

variable {requests : List Request}

/-- The workspace that some requests leave behind. -/
def after (w : Workspace) (levels : Nat) (requests : List Request) : Workspace :=
  requests.foldl (fun w request => (w.handle levels request).1) w

theorem after_concat (w : Workspace) (levels : Nat) (requests : List Request) (request : Request) :
    w.after levels (requests ++ [request]) = ((w.after levels requests).handle levels request).1 := by
  simp only [after, List.foldl_append, List.foldl_cons, List.foldl_nil]

theorem handleAll_concat (w : Workspace) (levels : Nat) (requests : List Request) (request : Request) :
    w.handleAll levels (requests ++ [request]) =
      w.handleAll levels requests ++ [(w.after levels requests).handle levels request] := by
  induction requests generalizing w with
  | nil => rfl
  | cons first requests ih =>
    simp only [List.cons_append, handleAll, ih]
    rfl

theorem length_handleAll (w : Workspace) (levels : Nat) (requests : List Request) :
    (w.handleAll levels requests).length = requests.length := by
  induction requests generalizing w with
  | nil => rfl
  | cons first requests ih => simp only [handleAll, List.length_cons, ih]

/-- The first steps of a run are the run of the first requests. -/
theorem take_handleAll (w : Workspace) (levels : Nat) (requests : List Request) (n : Nat) :
    (w.handleAll levels requests).take n = w.handleAll levels (requests.take n) := by
  induction requests generalizing w n with
  | nil => simp only [handleAll, List.take_nil]
  | cons first requests ih =>
    cases n with
    | zero => rfl
    | succ n => simp only [handleAll, List.take_succ_cons, ih]

theorem getElem?_handleAll (w : Workspace) (levels : Nat) (requests : List Request) (n : Nat) :
    (w.handleAll levels requests)[n]? =
      requests[n]?.map fun request => (w.after levels (requests.take n)).handle levels request := by
  induction requests generalizing w n with
  | nil => rfl
  | cons first requests ih =>
    cases n with
    | zero => rfl
    | succ n =>
      simp only [handleAll, List.getElem?_cons_succ, ih, List.take_succ_cons]
      rfl

/-- A step of a run ends with the workspace that the requests up to it leave behind. -/
theorem eq_after_of_step {n : Nat} {reply : Reply}
    (h : (w.handleAll levels requests)[n]? = some (next, reply)) :
    next = w.after levels (requests.take (n + 1)) := by
  rw [getElem?_handleAll, Option.map_eq_some_iff] at h
  obtain ⟨request, hRequest, hStep⟩ := h
  have hTake : requests.take (n + 1) = requests.take n ++ [request] := by
    rw [List.take_add_one, hRequest]
    rfl
  rw [hTake, after_concat, hStep]

end Workspace

/-! ## What was published -/

/-- All that some steps published, in order. -/
def published (steps : List (Workspace × Reply)) : List Publication :=
  steps.flatMap fun step => step.2.published

/-- What some steps published for a document, in order. -/
def publishedFor (uri : String) (steps : List (Workspace × Reply)) : List (List Marker) :=
  ((published steps).filter (·.uri = uri)).map Publication.markers

theorem publishedFor_append (uri : String) (steps others : List (Workspace × Reply)) :
    publishedFor uri (steps ++ others) = publishedFor uri steps ++ publishedFor uri others := by
  simp only [publishedFor, published, List.flatMap_append, List.filter_append, List.map_append]

/-- A step publishes for the document of its request, and only if the request tells something. -/
theorem publishedFor_handle (w : Workspace) (levels : Nat) (request : Request) (uri : String) :
    publishedFor uri [w.handle levels request] =
      if request.tells = true ∧ request.uri = uri then
        [shown levels (w.handle levels request).1.documents[uri]?]
      else [] := by
  have hSelf := (w.updates_handle levels request).self
  simp only [publishedFor, published, List.flatMap_cons, List.flatMap_nil, List.append_nil,
    Workspace.published_handle]
  cases hTells : request.tells with
  | false => rfl
  | true =>
    by_cases hUri : request.uri = uri
    · subst hUri
      simp [hSelf]
    · simp [hUri]

end MiniScheme.Editor
