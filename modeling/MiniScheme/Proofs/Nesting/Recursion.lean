/-!
# Recursion to a limited depth

A program that calls itself is given by one level of it, a `step` that takes the answers to its calls from
an argument. With a number of levels it goes down so far and answers that the input is too deep where they
are used up; a step may use the levels that are left for something else too (`stepWithin`). Two facts about the
program decide what the limit does to it (`LimitedRecursion`): a step passes on an answer that is too deep, and
every input has enough levels somewhere.

Then there is one function that takes the answers to its calls from itself, the program without a limit
(`eq_step_iff`), and with any number of levels an answer is that of the program without a limit, or too deep
(`settles`).
-/

namespace MiniScheme

/-- What becomes of an outcome as levels are added: it is too deep until it is the full one, and the full one
from then on. -/
structure Settles {O : Type} (outcome : Nat → O) (full : O) (TooDeep : O → Prop) : Prop where
  full_or_tooDeep : ∀ levels, outcome levels = full ∨ TooDeep (outcome levels)
  stays : ∀ levels more, levels ≤ more → ¬ TooDeep (outcome levels) → outcome more = outcome levels
  reached : ∃ levels, ∀ more, levels ≤ more → outcome more = full
  full_not_tooDeep : ¬ TooDeep full

/-- The same outcome as others report it. -/
theorem Settles.map {O O' : Type} {outcome : Nat → O} {full : O} {TooDeep : O → Prop}
    {TooDeep' : O' → Prop} (h : Settles outcome full TooDeep) (report : O → O')
    (hDeep : ∀ levels, TooDeep' (report (outcome levels)) ↔ TooDeep (outcome levels)) :
    Settles (fun levels => report (outcome levels)) (report full) TooDeep' where
  full_or_tooDeep levels := by
    rcases h.full_or_tooDeep levels with hFull | hTooDeep
    · exact .inl (congrArg report hFull)
    · exact .inr ((hDeep levels).mpr hTooDeep)
  stays levels more hLe hNot :=
    congrArg report (h.stays levels more hLe fun hTooDeep => hNot ((hDeep levels).mpr hTooDeep))
  reached := by
    obtain ⟨levels, hReached⟩ := h.reached
    exact ⟨levels, fun more hLe => congrArg report (hReached more hLe)⟩
  full_not_tooDeep := by
    obtain ⟨levels, hReached⟩ := h.reached
    have hFull := hReached levels (Nat.le_refl _)
    rw [← hFull, hDeep, hFull]
    exact h.full_not_tooDeep

/-- A program by its levels. -/
structure LimitedRecursion (I O : Type) where
  /-- One level, with the answers to its calls. -/
  step : (I → O) → I → O
  /-- One level, with a number of levels left. -/
  stepWithin : Nat → (I → O) → I → O
  /-- The answer is that the levels were used up. -/
  TooDeep : O → Prop
  /-- The program with a number of levels. -/
  within : Nat → I → O
  within_zero : ∀ i, TooDeep (within 0 i)
  within_succ : ∀ levels, within (levels + 1) = stepWithin levels (within levels)
  stepWithin_mono : ∀ {n m : Nat} {f g : I → O}, n ≤ m → (∀ i, f i = g i ∨ TooDeep (f i)) →
    ∀ i, stepWithin n f i = stepWithin m g i ∨ TooDeep (stepWithin n f i)
  stepWithin_step : ∀ (n : Nat) {f g : I → O}, (∀ i, f i = g i ∨ TooDeep (f i)) →
    ∀ i, stepWithin n f i = step g i ∨ TooDeep (stepWithin n f i)
  /-- As many levels as the input can need. -/
  levels : I → Nat
  enough : ∀ {n i}, levels i ≤ n → ¬ TooDeep (within n i)

namespace LimitedRecursion

variable {I O : Type} (P : LimitedRecursion I O)

/-- Every answer of the first function is that of the second or too deep. -/
def Approximates (f g : I → O) : Prop :=
  ∀ i, f i = g i ∨ P.TooDeep (f i)

theorem approximates_within {n m : Nat} (h : n ≤ m) : P.Approximates (P.within n) (P.within m) := by
  induction n generalizing m with
  | zero => exact fun i => .inr (P.within_zero i)
  | succ n ih =>
    obtain ⟨m, rfl⟩ : ∃ m', m = m' + 1 := ⟨m - 1, by omega⟩
    rw [P.within_succ n, P.within_succ m]
    exact P.stepWithin_mono (by omega) (ih (by omega))

theorem approximates_of_eq_step {f : I → O} (h : f = P.step f) (n : Nat) :
    P.Approximates (P.within n) f := by
  induction n with
  | zero => exact fun i => .inr (P.within_zero i)
  | succ n ih =>
    rw [h, P.within_succ n]
    exact P.stepWithin_step n ih

/-- The program without a limit: every input has its levels. -/
def unlimited (i : I) : O :=
  P.within (P.levels i) i

theorem unlimited_not_tooDeep (i : I) : ¬ P.TooDeep (P.unlimited i) :=
  P.enough (Nat.le_refl _)

theorem within_eq_unlimited {n : Nat} {i : I} (h : P.levels i ≤ n) : P.within n i = P.unlimited i :=
  ((P.approximates_within h i).resolve_right (P.unlimited_not_tooDeep i)).symm

theorem approximates_unlimited (n : Nat) : P.Approximates (P.within n) P.unlimited := by
  intro i
  by_cases h : n ≤ P.levels i
  · exact P.approximates_within h i
  · exact .inl (P.within_eq_unlimited (by omega))

/-- Without a limit the calls are answered without a limit. -/
theorem unlimited_eq_step : P.unlimited = P.step P.unlimited := by
  funext i
  have hNot : ¬ P.TooDeep (P.within (P.levels i + 1) i) := P.enough (Nat.le_succ _)
  have hStep := P.stepWithin_step (P.levels i) (P.approximates_unlimited (P.levels i)) i
  rw [← P.within_succ] at hStep
  rw [← hStep.resolve_right hNot, P.within_eq_unlimited (Nat.le_succ _)]

theorem eq_step_iff (f : I → O) : f = P.step f ↔ f = P.unlimited := by
  constructor
  · intro h
    funext i
    exact ((P.approximates_of_eq_step h (P.levels i) i).resolve_right (P.unlimited_not_tooDeep i)).symm
  · rintro rfl
    exact P.unlimited_eq_step

theorem settles (i : I) : Settles (fun n => P.within n i) (P.unlimited i) P.TooDeep where
  full_or_tooDeep n := P.approximates_unlimited n i
  stays _ _ hLe hNot := ((P.approximates_within hLe i).resolve_right hNot).symm
  reached := ⟨P.levels i, fun _ hLe => P.within_eq_unlimited hLe⟩
  full_not_tooDeep := P.unlimited_not_tooDeep i

end LimitedRecursion

end MiniScheme
