import MiniScheme.Proofs.Editor.Handling

/-!
# Documents do not interfere

What can be seen of a document in a run is its text in the end, what was published for it, and the answers to
the requests about it. None of this depends on the requests about other documents: the run of the requests
about the document alone shows the same (`view_filter`). For this two runs are compared that start from
workspaces which need to agree on the one document only.

So requests may be put in any other order that keeps the order of those about each document.
-/

namespace MiniScheme.Editor

/-- What can be seen of a document in a run of requests. -/
structure View where
  /-- The text that is kept in the end. -/
  text : Option String
  /-- The markers published for the document, in order. -/
  published : List (List Marker)
  /-- The requests about the document with their answers, in order. -/
  answers : List (Request × Answer)

/-- What is seen with one request about the document before all others. -/
def View.precededBy (later : View) (uri : String) (request : Request) (reply : Reply) : View where
  text := later.text
  published := (reply.published.filter (·.uri = uri)).map Publication.markers ++ later.published
  answers := (request, reply.answer) :: later.answers

/-- The answers to the requests about a document. -/
def answersFor (uri : String) (requests : List Request) (steps : List (Workspace × Reply)) :
    List (Request × Answer) :=
  ((requests.zip steps).filter (·.1.uri = uri)).map fun step => (step.1, step.2.2.answer)

namespace Workspace

variable {w w' : Workspace} {levels : Nat} {uri : String} {request : Request} {requests requests' : List Request}

/-- What can be seen of a document when the requests are handled from this workspace on. -/
def view (w : Workspace) (levels : Nat) (uri : String) (requests : List Request) : View where
  text := (w.after levels requests).documents[uri]?
  published := publishedFor uri (w.handleAll levels requests)
  answers := answersFor uri requests (w.handleAll levels requests)

/-! ## One step -/

theorem view_cons_self (w : Workspace) (levels : Nat) (request : Request) (requests : List Request) :
    w.view levels request.uri (request :: requests) =
      ((w.handle levels request).1.view levels request.uri requests).precededBy request.uri request
        (w.handle levels request).2 := by
  simp [view, View.precededBy, after, handleAll, publishedFor, published, answersFor]

theorem view_cons_of_ne (h : request.uri ≠ uri) (w : Workspace) (levels : Nat) (requests : List Request) :
    w.view levels uri (request :: requests) = (w.handle levels request).1.view levels uri requests := by
  have hFirst : publishedFor uri [w.handle levels request] = [] := by
    rw [publishedFor_handle, if_neg fun hBoth => h hBoth.2]
  have hPublished : publishedFor uri
      (w.handle levels request :: (w.handle levels request).1.handleAll levels requests) =
        publishedFor uri ((w.handle levels request).1.handleAll levels requests) := by
    rw [← List.singleton_append, publishedFor_append, hFirst, List.nil_append]
  simp [view, hPublished, after, handleAll, answersFor, h]

/-! ## Runs -/

/-- Workspaces that agree on a document show the same of it, also if the requests about others are left
out. -/
theorem view_filter_of_documents (requests : List Request)
    (h : w.documents[uri]? = w'.documents[uri]?) :
    w.view levels uri requests = w'.view levels uri (requests.filter (·.uri = uri)) := by
  induction requests generalizing w w' with
  | nil => simp [view, after, handleAll, publishedFor, published, answersFor, h]
  | cons request requests ih =>
    by_cases hUri : request.uri = uri
    · subst hUri
      have hNext : (w.handle levels request).1.documents[request.uri]? =
          (w'.handle levels request).1.documents[request.uri]? := by
        rw [(w.updates_handle levels request).self, (w'.updates_handle levels request).self, h]
      rw [List.filter_cons_of_pos (by simp), view_cons_self, view_cons_self, reply_eq_of_documents h,
        ih hNext]
    · have hNext : (w.handle levels request).1.documents[uri]? = w'.documents[uri]? :=
        ((w.updates_handle levels request uri).trans (if_neg hUri)).trans h
      rw [List.filter_cons_of_neg (by simpa using hUri), view_cons_of_ne hUri]
      exact ih hNext

theorem view_filter (w : Workspace) (levels : Nat) (uri : String) (requests : List Request) :
    w.view levels uri requests = w.view levels uri (requests.filter (·.uri = uri)) :=
  view_filter_of_documents requests rfl

theorem view_eq_of_filter_eq
    (h : requests.filter (·.uri = uri) = requests'.filter (·.uri = uri)) :
    w.view levels uri requests = w.view levels uri requests' := by
  rw [view_filter w levels uri requests, h, ← view_filter]

end Workspace

/-- Neighbours about different documents can change places. -/
theorem filter_exchange {a b : Request} (h : a.uri ≠ b.uri) (before later : List Request) (uri : String) :
    (before ++ a :: b :: later).filter (·.uri = uri) =
      (before ++ b :: a :: later).filter (·.uri = uri) := by
  rw [List.filter_append, List.filter_append]
  congr 1
  by_cases ha : a.uri = uri
  · have hb : b.uri ≠ uri := fun hb => h (ha.trans hb.symm)
    simp [ha, hb]
  · by_cases hb : b.uri = uri
    · simp [ha, hb]
    · simp [ha, hb]

/-- What is seen of a document is what is seen of it when only the requests about it are handled. So all
documents look the same when the requests come in another order, as long as those about one document keep
theirs; and neighbours about different documents may always change places. -/
theorem documents_do_not_interfere (levels : Nat) :
    (∀ (requests : List Request) (uri : String),
      Workspace.empty.view levels uri requests =
        Workspace.empty.view levels uri (requests.filter (·.uri = uri))) ∧
    (∀ requests requests' : List Request,
      (∀ uri, requests.filter (·.uri = uri) = requests'.filter (·.uri = uri)) →
        ∀ uri, Workspace.empty.view levels uri requests = Workspace.empty.view levels uri requests') ∧
    ∀ (before later : List Request) (a b : Request), a.uri ≠ b.uri →
      ∀ uri, Workspace.empty.view levels uri (before ++ a :: b :: later) =
        Workspace.empty.view levels uri (before ++ b :: a :: later) := by
  refine ⟨fun requests uri => Workspace.view_filter _ levels uri requests, ?_, ?_⟩
  · intro requests requests' hFilter uri
    exact Workspace.view_eq_of_filter_eq (hFilter uri)
  · intro before later a b hUri uri
    exact Workspace.view_eq_of_filter_eq (filter_exchange hUri before later uri)

/-- A hover request between openings and closings of two documents, and the documents one after the other. -/
theorem documents_do_not_interfere_hover :
    (∀ uri, Workspace.empty.view 3 uri
        [.opened "a" "(+ 1)", .opened "b" "(", .hover "a" ⟨0, 1⟩, .closed "b"] =
      Workspace.empty.view 3 uri
        [.opened "b" "(", .closed "b", .opened "a" "(+ 1)", .hover "a" ⟨0, 1⟩]) ∧
    (Request.hover "a" ⟨0, 1⟩).uri ≠ (Request.closed "b").uri ∧
    ∀ uri, Workspace.empty.view 3 uri
        [.opened "a" "(+ 1)", .opened "b" "(", .hover "a" ⟨0, 1⟩, .closed "b"] =
      Workspace.empty.view 3 uri
        [.opened "a" "(+ 1)", .opened "b" "(", .closed "b", .hover "a" ⟨0, 1⟩] := by
  obtain ⟨-, hReordered, hExchanged⟩ := documents_do_not_interfere 3
  have hUri : (Request.hover "a" ⟨0, 1⟩).uri ≠ (Request.closed "b").uri := by decide
  refine ⟨hReordered _ _ ?_, hUri, hExchanged [.opened "a" "(+ 1)", .opened "b" "("] [] _ _ hUri⟩
  intro uri
  by_cases hA : "a" = uri
  · subst hA
    rfl
  · by_cases hB : "b" = uri
    · subst hB
      rfl
    · simp [Request.uri, hA, hB]

end MiniScheme.Editor
