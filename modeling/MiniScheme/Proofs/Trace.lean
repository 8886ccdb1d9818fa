import Mathlib.Data.List.Forall2
import MiniScheme.Trace

/-!
# Outcomes of computations

A sequence of computations that succeeds is taken apart into its steps. Two things are said about failures: that
all of them are of some kind (`FailsOnly`), and that a computation is another one except that it may end with one
error more (`Traced.SameOr`, `SameOrError`). Sequences of computations keep both.
-/

namespace MiniScheme

/-! ## Successes -/

theorem exists_of_bind_ok {α β : Type} {x : Except Error α} {f : α → Except Error β} {b : β}
    (h : x >>= f = .ok b) : ∃ a, x = .ok a ∧ f a = .ok b := by
  cases x with
  | error e => cases h
  | ok a => exact ⟨a, rfl, h⟩

/-- The results of a list of successes. -/
theorem forall₂_of_mapM {α β : Type} {f : α → Except Error β} {as : List α} {bs : List β}
    (h : as.mapM f = .ok bs) : List.Forall₂ (fun a b => f a = .ok b) as bs := by
  induction as generalizing bs with
  | nil =>
    cases h
    exact .nil
  | cons a as ih =>
    rw [List.mapM_cons] at h
    obtain ⟨b, hFirst, hLater⟩ := exists_of_bind_ok h
    obtain ⟨bs', hOthers, hAll⟩ := exists_of_bind_ok hLater
    cases hAll
    exact .cons hFirst (ih hOthers)

theorem exists_of_mem_mapM {α β : Type} {f : α → Except Error β} {as : List α} {bs : List β} {b : β}
    (h : as.mapM f = .ok bs) (hb : b ∈ bs) : ∃ a ∈ as, f a = .ok b := by
  have hAll := forall₂_of_mapM h
  clear h
  induction hAll with
  | nil => cases hb
  | @cons a b' as bs hFirst _ ih =>
    rcases List.mem_cons.mp hb with rfl | hLater
    · exact ⟨a, List.mem_cons_self, hFirst⟩
    · obtain ⟨other, hMem, hOther⟩ := ih hLater
      exact ⟨other, List.mem_cons_of_mem a hMem, hOther⟩

/-- A question about a list that is answered is answered by the first member that says yes, or by all. -/
theorem anyM_eq_ok {α : Type} {f : α → Except Error Bool} {as : List α} {b : Bool} (h : as.anyM f = .ok b) :
    (b = true → ∃ a ∈ as, f a = .ok true) ∧ (b = false → ∀ a ∈ as, f a = .ok false) := by
  induction as with
  | nil =>
    cases h
    exact ⟨nofun, fun _ => nofun⟩
  | cons a as ih =>
    rw [List.anyM] at h
    obtain ⟨first, hFirst, hLater⟩ := exists_of_bind_ok h
    cases first with
    | true =>
      cases hLater
      exact ⟨fun _ => ⟨a, List.mem_cons_self, hFirst⟩, nofun⟩
    | false =>
      obtain ⟨hTrue, hFalse⟩ := ih hLater
      refine ⟨fun hb => ?_, fun hb => List.forall_mem_cons.mpr ⟨hFirst, hFalse hb⟩⟩
      obtain ⟨other, hMem, hOther⟩ := hTrue hb
      exact ⟨other, List.mem_cons_of_mem a hMem, hOther⟩

theorem mapError_eq_ok {α : Type} {f : Error → Error} {x : Except Error α} {a : α} :
    x.mapError f = .ok a ↔ x = .ok a := by
  cases x with
  | ok b => exact Iff.rfl
  | error e => exact iff_of_false nofun nofun

/-! ## Failures of one kind -/

/-- Every failure of the computation is one of the errors in `Q`. -/
def FailsOnly {α : Type} (Q : Error → Prop) (x : Except Error α) : Prop :=
  ∀ e, x = .error e → Q e

section FailsOnly

variable {α β : Type} {Q : Error → Prop}

theorem failsOnly_ok (a : α) : FailsOnly Q (.ok a) := by
  intro e h
  cases h

theorem failsOnly_error {e : Error} (h : Q e) : FailsOnly Q (.error e : Except Error α) := by
  intro e' h'
  cases h'
  exact h

theorem FailsOnly.imp {Q' : Error → Prop} {x : Except Error α} (h : FailsOnly Q x)
    (hQ : ∀ e, Q e → Q' e) : FailsOnly Q' x :=
  fun e he => hQ e (h e he)

theorem failsOnly_bind_of_ok {x : Except Error α} {f : α → Except Error β} (hx : FailsOnly Q x)
    (hf : ∀ a, x = .ok a → FailsOnly Q (f a)) : FailsOnly Q (x >>= f) := by
  cases x with
  | error e => exact failsOnly_error (hx e rfl)
  | ok a => exact hf a rfl

theorem failsOnly_bind {x : Except Error α} {f : α → Except Error β} (hx : FailsOnly Q x)
    (hf : ∀ a, FailsOnly Q (f a)) : FailsOnly Q (x >>= f) :=
  failsOnly_bind_of_ok hx fun a _ => hf a

theorem failsOnly_mapM {f : α → Except Error β} {as : List α} (hf : ∀ a ∈ as, FailsOnly Q (f a)) :
    FailsOnly Q (as.mapM f) := by
  induction as with
  | nil => exact failsOnly_ok []
  | cons a as ih =>
    obtain ⟨ha, has⟩ := List.forall_mem_cons.mp hf
    rw [List.mapM_cons]
    exact failsOnly_bind ha fun b => failsOnly_bind (ih has) fun bs => failsOnly_ok (b :: bs)

theorem failsOnly_mapError {f : Error → Error} {x : Except Error α} (h : FailsOnly (fun e => Q (f e)) x) :
    FailsOnly Q (x.mapError f) := by
  cases x with
  | ok a => exact failsOnly_ok a
  | error e => exact failsOnly_error (h e rfl)

end FailsOnly

/-! ## One failure more

The computations of a program with fewer levels are those of the program with more, or they end with the
error that the levels were used up.
-/

/-- A relation that values and sequences keep is kept by going through a list. -/
theorem mapM_related {m : Type → Type} [Monad m] [LawfulMonad m] {R : (β : Type) → m β → m β → Prop}
    (hPure : ∀ {β : Type} (b : β), R β (pure b) (pure b))
    (hBind : ∀ {β γ : Type} {x y : m β} {f g : β → m γ}, R β x y → (∀ b, R γ (f b) (g b)) →
      R γ (x >>= f) (y >>= g))
    {α β : Type} {f g : α → m β} {as : List α} (h : ∀ a ∈ as, R β (f a) (g a)) :
    R (List β) (as.mapM f) (as.mapM g) := by
  induction as with
  | nil =>
    rw [List.mapM_nil, List.mapM_nil]
    exact hPure []
  | cons a as ih =>
    obtain ⟨ha, has⟩ := List.forall_mem_cons.mp h
    rw [List.mapM_cons, List.mapM_cons]
    exact hBind ha fun b => hBind (ih has) fun bs => hPure (b :: bs)

/-- The computation is the other one, or it ends with the error. -/
def Traced.SameOr (e : Error) (β : Type) (x y : Traced β) : Prop :=
  x = y ∨ x.result = .error e

theorem Traced.SameOr.bind {e : Error} {β γ : Type} {x y : Traced β} {f g : β → Traced γ}
    (h : Traced.SameOr e β x y) (hf : ∀ b, Traced.SameOr e γ (f b) (g b)) :
    Traced.SameOr e γ (x >>= f) (y >>= g) := by
  rcases h with rfl | hFailed
  · cases hResult : x.result with
    | error e' =>
      rw [Traced.bind_of_error hResult, Traced.bind_of_error hResult]
      exact .inl rfl
    | ok b =>
      rw [Traced.bind_of_ok hResult, Traced.bind_of_ok hResult]
      rcases hf b with hEq | hFailed
      · rw [hEq]
        exact .inl rfl
      · exact .inr hFailed
  · rw [Traced.bind_of_error hFailed]
    exact .inr rfl

theorem Traced.SameOr.mapError {e : Error} {β : Type} {x y : Traced β} (h : Traced.SameOr e β x y)
    (f : Error → Error) : Traced.SameOr (f e) β (x.mapError f) (y.mapError f) := by
  rcases h with rfl | hFailed
  · exact .inl rfl
  · refine .inr ?_
    rw [Traced.mapError, hFailed]
    rfl

/-- The result is the other one, or it is the error. -/
def SameOrError (e : Error) (β : Type) (x y : Except Error β) : Prop :=
  x = y ∨ x = .error e

theorem SameOrError.bind {e : Error} {β γ : Type} {x y : Except Error β} {f g : β → Except Error γ}
    (h : SameOrError e β x y) (hf : ∀ b, SameOrError e γ (f b) (g b)) :
    SameOrError e γ (x >>= f) (y >>= g) := by
  rcases h with rfl | rfl
  · cases x with
    | error e' => exact .inl rfl
    | ok b => exact hf b
  · exact .inr rfl

theorem SameOrError.foldlM {e : Error} {α β : Type} {f g : β → α → Except Error β}
    (h : ∀ b a, SameOrError e β (f b a) (g b a)) (as : List α) (b : β) :
    SameOrError e β (as.foldlM f b) (as.foldlM g b) := by
  induction as generalizing b with
  | nil => exact .inl rfl
  | cons a as ih =>
    rw [List.foldlM_cons, List.foldlM_cons]
    exact (h b a).bind ih

end MiniScheme
