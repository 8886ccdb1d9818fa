import MiniScheme.Proofs.Evaluation.Order

/-!
# Values in place of forms

A context is a form with one place left open that evaluation comes to: the form itself or, at any depth, an
argument of an application. What stands in such a place is what is reached through arguments
(`Context.reaches_iff_fill`).

One form replaces another if it has the same value or the same error wherever the other does not nest too
deeply. The quotation of a value replaces every form with that value, and a replacement in a context
replaces the whole (`Datum.Replaces.fill`), because an application asks for nothing but the values of its
arguments, and whether a list is a quotation is decided by its head and its length.
-/

namespace MiniScheme

open Datum (Reaches)

/-! ## Contexts -/

/-- A form with an open place that evaluation comes to. The lists around the place are applications: one that
starts with `quote` has other arguments. -/
inductive Context where
  | hole
  | argument (name : String) (before : List Datum) (inner : Context) (after : List Datum)
      (call : name = "quote" → before ++ after ≠ [])

namespace Context

/-- The form with a datum in the open place. -/
def fill : Context → Datum → Datum
  | .hole, part => part
  | .argument name before inner after _, part =>
    .list (.symbol name :: (before ++ inner.fill part :: after))

theorem application?_of_call {name : String} {before after : List Datum}
    (call : name = "quote" → before ++ after ≠ []) (arg : Datum) :
    (Datum.list (.symbol name :: (before ++ arg :: after))).application? =
      some (name, before ++ arg :: after) := by
  have hNot : ¬ (name = "quote" ∧ (before ++ arg :: after).length = 1) := by
    rintro ⟨hName, hLength⟩
    apply call hName
    rw [List.length_append, List.length_cons] at hLength
    apply List.eq_nil_of_length_eq_zero
    rw [List.length_append]
    omega
  rw [Datum.application?, if_neg hNot]

theorem reaches_fill (context : Context) (part : Datum) : Reaches (context.fill part) part := by
  induction context with
  | hole => exact .self part
  | argument name before inner after call ih =>
    exact .argument (application?_of_call call (inner.fill part)) (by simp) ih

theorem exists_fill_of_reaches {whole part : Datum} (h : Reaches whole part) :
    ∃ context : Context, context.fill part = whole := by
  induction h with
  | self whole => exact ⟨.hole, rfl⟩
  | @argument whole arg part name args call mem inside ih =>
    obtain ⟨inner, rfl⟩ := ih
    obtain ⟨before, after, rfl⟩ := List.append_of_mem mem
    obtain ⟨rfl, hNot⟩ := Datum.eq_of_application call
    refine ⟨.argument name before inner after ?_, rfl⟩
    intro hName hAlone
    apply hNot
    obtain ⟨rfl, rfl⟩ := List.append_eq_nil_iff.mp hAlone
    exact ⟨hName, rfl⟩

/-- The places of contexts are those that are reached through arguments. -/
theorem reaches_iff_fill {whole part : Datum} :
    Reaches whole part ↔ ∃ context : Context, context.fill part = whole := by
  constructor
  · exact exists_fill_of_reaches
  · rintro ⟨context, rfl⟩
    exact context.reaches_fill part

end Context

/-! ## Replacements -/

/-- Evaluation gives the same for the new form as for the old one, unless the old one nests too deeply. -/
def Datum.Replaces (new old : Datum) : Prop :=
  ∀ levels, (evaluateWithin levels old).result ≠ .error .evaluationTooDeep →
    (evaluateWithin levels new).result = (evaluateWithin levels old).result

/-- A form that has a value has it with all levels that do not turn out too few. -/
theorem result_of_result {levels more : Nat} {datum v : Datum}
    (h : (evaluateWithin levels datum).result = .ok v)
    (hDeep : (evaluateWithin more datum).result ≠ .error .evaluationTooDeep) :
    (evaluateWithin more datum).result = .ok v := by
  have hWalk : evaluateWithin levels datum = datum.walk := by
    apply evaluate_eq_walk
    rw [h]
    nofun
  rw [evaluate_eq_walk hDeep, ← hWalk, h]

theorem quotation_replaces {levels : Nat} {part v : Datum}
    (h : (evaluateWithin levels part).result = .ok v) :
    (Datum.list [.symbol "quote", v]).Replaces part := by
  intro more hDeep
  have hPos : 0 < more := by
    apply Nat.pos_of_ne_zero
    rintro rfl
    exact hDeep rfl
  rw [result_of_result h hDeep, evaluate_quotation hPos]
  rfl

/-- Of one argument, the result of an application depends on the result only. -/
theorem result_around {name : String} {before after : List Datum}
    (call : name = "quote" → before ++ after ≠ []) (levels : Nat) (arg : Datum) :
    (evaluateWithin (levels + 1) (.list (.symbol name :: (before ++ arg :: after)))).result = (do
      let earlier ← before.mapM fun arg => (evaluateWithin levels arg).result
      let value ← (evaluateWithin levels arg).result
      let later ← after.mapM fun arg => (evaluateWithin levels arg).result
      ((applyWithin levels name (earlier ++ value :: later)).mapError Error.inEvaluation).result) := by
  rw [evaluateWithin, Datum.form_of_application (Context.application?_of_call call arg)]
  show ((before ++ arg :: after).mapM (evaluateWithin levels) >>= fun values =>
    (applyWithin levels name values).mapError Error.inEvaluation).result = _
  rw [Traced.bind_result, Traced.mapM_result, List.mapM_append, List.mapM_cons]
  simp only [bind_assoc, pure_bind]

namespace Datum.Replaces

/-- The arguments before the replaced one may end the evaluation, for both forms in the same way. If they do
not, the replaced one does not nest too deeply, since the application would, and gives the same for both. -/
theorem argument {new old : Datum} (h : new.Replaces old) {name : String} {before after : List Datum}
    (call : name = "quote" → before ++ after ≠ []) :
    (list (.symbol name :: (before ++ new :: after))).Replaces
      (list (.symbol name :: (before ++ old :: after))) := by
  intro levels hDeep
  cases levels with
  | zero => exact absurd rfl hDeep
  | succ levels =>
    rw [result_around call] at hDeep
    rw [result_around call, result_around call]
    cases hBefore : before.mapM (fun arg => (evaluateWithin levels arg).result) with
    | error e => rfl
    | ok earlier =>
      have hOld : (evaluateWithin levels old).result ≠ .error .evaluationTooDeep := by
        intro hOld
        rw [hBefore, hOld] at hDeep
        exact hDeep rfl
      rw [h levels hOld]

/-- A replacement at the open place replaces the whole form. -/
theorem fill {new old : Datum} (h : new.Replaces old) (context : Context) :
    (context.fill new).Replaces (context.fill old) := by
  induction context with
  | hole => exact h
  | argument name before inner after call ih => exact ih.argument call

end Datum.Replaces

/-- Every form that is reached through arguments stands in a context. If it has a value, then the quotation of
the value may be put there: the whole form has the same value as before, or fails with the same error. -/
theorem quoted_value_in_place {levels : Nat} {whole part v : Datum} (hReached : Reaches whole part)
    (hPart : (evaluateWithin levels part).result = .ok v)
    (hDeep : (evaluateWithin levels whole).result ≠ .error .evaluationTooDeep) :
    (∃ context : Context, context.fill part = whole) ∧
    ∀ context : Context, context.fill part = whole →
      (evaluateWithin levels (context.fill (.list [.symbol "quote", v]))).result =
        (evaluateWithin levels whole).result := by
  refine ⟨Context.reaches_iff_fill.mp hReached, ?_⟩
  rintro context rfl
  exact (quotation_replaces hPart).fill context levels hDeep

/-- The product stands among the two arguments of a list that starts with `quote` and is no quotation. With
its value in its place the division still fails. -/
theorem quoted_value_in_place_division :
    let product := Datum.list [.symbol "*", .number 2, .number 3]
    let context := Context.argument "/" [.number 7]
      (.argument "quote" [.number 1] .hole [] (by simp)) [] (by simp)
    (evaluateWithin 10000 product).result = .ok (.number 6) ∧
    (evaluateWithin 10000 (context.fill product)).result = .error (.divisionByZero "/") ∧
    (evaluateWithin 10000 (context.fill (.list [.symbol "quote", .number 6]))).result =
      .error (.divisionByZero "/") := by
  intro product context
  have hProduct : (evaluateWithin 10000 product).result = .ok (.number 6) := rfl
  have hWhole : (evaluateWithin 10000 (context.fill product)).result =
      .error (.divisionByZero "/") := rfl
  have hDeep : (evaluateWithin 10000 (context.fill product)).result ≠
      .error .evaluationTooDeep := by
    rw [hWhole]
    nofun
  obtain ⟨-, hSame⟩ := quoted_value_in_place (context.reaches_fill product) hProduct hDeep
  exact ⟨hProduct, hWhole, (hSame context rfl).trans hWhole⟩

end MiniScheme
