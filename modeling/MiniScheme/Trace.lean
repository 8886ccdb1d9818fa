import MiniScheme.Error

/-!
# Traced computations

A computation leaves a record of events and either succeeds or fails; a failure keeps the events before it.
-/

namespace MiniScheme

/-- Something worth recording. -/
inductive Event where
  /-- Arguments after the first were given. -/
  | extraArguments (count : Nat)
  /-- A text could not be read. -/
  | readFailed (offset : Nat) (reason : String)
  /-- There is no operator of this name. -/
  | unknownOperator (name : String)
  /-- An operator is applied. -/
  | applying (operator : String) (count : Nat)
  /-- An expression could not be evaluated or its value not be printed. -/
  | runFailed (source : String)
deriving DecidableEq, Repr

namespace Event

/-- The part of the program that an event is reported by. -/
def reporter : Event → String
  | .extraArguments _ => "schemer"
  | .readFailed _ _ => "schemer.reader.parser"
  | .unknownOperator _ => "schemer.evaluation.apply"
  | .applying _ _ => "schemer.evaluation.apply"
  | .runFailed _ => "schemer"

/-- The event in words. -/
def message : Event → String
  | .extraArguments count => "ignoring " ++ Numeral.decimal count ++ " extra argument(s)"
  | .readFailed offset reason => "read failed at offset " ++ Numeral.decimal offset ++ ": " ++ reason
  | .unknownOperator name => "unknown operator " ++ Text.quoted name ++ ", yielding #f"
  | .applying operator count =>
    "applying " ++ operator ++ " to " ++ Numeral.decimal count ++ " argument(s)"
  | .runFailed source => "evaluation of " ++ Text.quoted source ++ " failed"

end Event

/-- The events of a computation in order, and how it ended. -/
structure Traced (α : Type) where
  events : List Event
  result : Except Error α

namespace Traced

variable {α β : Type}

@[inline] protected def pure (a : α) : Traced α :=
  ⟨[], .ok a⟩

@[inline] protected def bind (x : Traced α) (f : α → Traced β) : Traced β :=
  match x.result with
  | .ok a =>
    let y := f a
    ⟨x.events ++ y.events, y.result⟩
  | .error e => ⟨x.events, .error e⟩

instance : Monad Traced where
  pure := Traced.pure
  bind := Traced.bind

/-- The computation that fails. -/
def fail (e : Error) : Traced α :=
  ⟨[], .error e⟩

/-- The computation that records an event. -/
def record (e : Event) : Traced Unit :=
  ⟨[e], .ok ()⟩

/-- The computation with another error in place of its own. -/
def mapError (f : Error → Error) (x : Traced α) : Traced α :=
  ⟨x.events, x.result.mapError f⟩

/-- A computation without events. -/
def ofExcept (result : Except Error α) : Traced α :=
  ⟨[], result⟩

@[simp] theorem pure_events (a : α) : (pure a : Traced α).events = [] := rfl

@[simp] theorem pure_result (a : α) : (pure a : Traced α).result = .ok a := rfl

theorem bind_of_ok {x : Traced α} {a : α} (h : x.result = .ok a) (f : α → Traced β) :
    x >>= f = ⟨x.events ++ (f a).events, (f a).result⟩ := by
  show Traced.bind x f = _
  simp [Traced.bind, h]

theorem bind_of_error {x : Traced α} {e : Error} (h : x.result = .error e) (f : α → Traced β) :
    x >>= f = ⟨x.events, .error e⟩ := by
  show Traced.bind x f = _
  simp [Traced.bind, h]

theorem bind_result (x : Traced α) (f : α → Traced β) :
    (x >>= f).result = x.result >>= fun a => (f a).result := by
  cases h : x.result with
  | ok a => rw [bind_of_ok h]; rfl
  | error e => rw [bind_of_error h]; rfl

instance : LawfulMonad Traced := LawfulMonad.mk' Traced
  (fun x => by
    show Traced.bind x Traced.pure = x
    cases x with
    | mk events result => cases result <;> simp [Traced.bind, Traced.pure])
  (fun _ _ => rfl)
  (fun x f g => by
    show Traced.bind (Traced.bind x f) g = Traced.bind x fun a => Traced.bind (f a) g
    cases x with
    | mk events result =>
      cases result with
      | error e => rfl
      | ok a => cases h : (f a).result <;> simp [Traced.bind, h])

theorem mapM_result (f : α → Traced β) (as : List α) :
    (as.mapM f).result = as.mapM fun a => (f a).result := by
  induction as with
  | nil => rfl
  | cons a as ih =>
    simp only [List.mapM_cons, bind_result, ih]
    rfl

end Traced

end MiniScheme
