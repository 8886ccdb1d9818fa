import MiniScheme.Proofs.Evaluation.Value
import MiniScheme.Proofs.Nesting.Outcomes

/-!
# The order of evaluation

Evaluation comes to the form itself and, where that is an application, to everything that it comes to in the
arguments: from the left to the right, and to the application after its arguments (`Datum.visited`). Of each
datum it comes to, one can tell what is recorded there (`Datum.record?`) and what goes wrong there
(`Datum.fault?`), once the values of forms are known. The values are said without evaluation
(`Datum.value`), over all data; below a fault they mean nothing, but then they are not asked for.

Evaluation is a walk along the visited data, to the first fault (`evaluate_eq_walk`). What it records, and
which of several errors it reports, is read off the walk.
-/

namespace MiniScheme

namespace Datum

/-! ## Applications -/

/-- The operator and the arguments of an application, which is a list that starts with a symbol and is not
the quotation of a datum. -/
def application? : Datum → Option (String × List Datum)
  | .list (.symbol name :: args) =>
    if name = "quote" ∧ args.length = 1 then none else some (name, args)
  | _ => none

/-- The second datum is reached from the first through arguments of applications. -/
inductive Reaches : Datum → Datum → Prop
  | self (v : Datum) : Reaches v v
  | argument {v arg node : Datum} {name : String} {args : List Datum}
      (call : v.application? = some (name, args)) (mem : arg ∈ args) (inside : Reaches arg node) :
      Reaches v node

mutual

/-- The data that evaluation comes to, from the left to the right, an application after its arguments. -/
def visited : Datum → List Datum
  | .list (.symbol name :: args) =>
    if name = "quote" ∧ args.length = 1 then [.list (.symbol name :: args)]
    else visitedAll args ++ [.list (.symbol name :: args)]
  | v => [v]

/-- The data that evaluation comes to in a list of forms. -/
def visitedAll : List Datum → List Datum
  | [] => []
  | v :: vs => v.visited ++ visitedAll vs

end

/-- What is recorded at a datum: how many arguments its operator is applied to, or that there is no such
operator. -/
def record? (v : Datum) : Option Event :=
  v.application?.map fun (name, args) =>
    if (Operator.ofName? name).isSome then .applying name args.length else .unknownOperator name

/-! ## Values and faults -/

/-- What the operator of a name makes of data, where it can be applied to them. -/
def applied (name : String) (args : List Datum) : Datum :=
  match Operator.ofName? name with
  | none => .bool false
  | some op => .number (op.total (args.map toInteger))

mutual

/-- The value of a form, where it has one. -/
def value : Datum → Datum
  | .list [.symbol name, v] => if name = "quote" then v else applied name [v.value]
  | .list (.symbol name :: args) => applied name (values args)
  | v => v

/-- The values of a list of forms. -/
def values : List Datum → List Datum
  | [] => []
  | v :: vs => v.value :: values vs

end

/-- What goes wrong at a datum, if nothing goes wrong before. -/
def fault? : Datum → Option Error
  | .number _ | .string _ | .bool _ => none
  | .symbol name => some (.unboundSymbol name)
  | .list (.symbol name :: args) =>
    if name = "quote" ∧ args.length = 1 then none
    else (Operator.ofName? name).bind fun op => op.fault? ((values args).map toInteger)
  | v => some (.malformedForm v.kind)

theorem values_eq_map (vs : List Datum) : values vs = vs.map value := by
  induction vs with
  | nil => rfl
  | cons v vs ih => rw [values, ih, List.map_cons]

theorem eq_of_application {v : Datum} {name : String} {args : List Datum}
    (h : v.application? = some (name, args)) :
    v = .list (.symbol name :: args) ∧ ¬ (name = "quote" ∧ args.length = 1) := by
  unfold application? at h
  split at h
  · split at h
    · cases h
    · cases h
      exact ⟨rfl, by assumption⟩
  · cases h

theorem form_of_application {v : Datum} {name : String} {args : List Datum}
    (h : v.application? = some (name, args)) : v.form = .application name args := by
  obtain ⟨rfl, hNot⟩ := eq_of_application h
  match args with
  | [] => rfl
  | [arg] =>
    have hName : name ≠ "quote" := fun hName => hNot ⟨hName, rfl⟩
    simp [form, hName]
  | _ :: _ :: _ => rfl

theorem visited_of_application {v : Datum} {name : String} {args : List Datum}
    (h : v.application? = some (name, args)) : v.visited = visitedAll args ++ [v] := by
  obtain ⟨rfl, hNot⟩ := eq_of_application h
  rw [visited, if_neg hNot]

theorem value_of_application {v : Datum} {name : String} {args : List Datum}
    (h : v.application? = some (name, args)) : v.value = applied name (values args) := by
  obtain ⟨rfl, hNot⟩ := eq_of_application h
  match args with
  | [] => simp [value]
  | [arg] =>
    have hName : name ≠ "quote" := fun hName => hNot ⟨hName, rfl⟩
    simp [value, values, hName]
  | _ :: _ :: _ => simp [value]

theorem fault?_of_application {v : Datum} {name : String} {args : List Datum}
    (h : v.application? = some (name, args)) :
    v.fault? = (Operator.ofName? name).bind fun op => op.fault? ((values args).map toInteger) := by
  obtain ⟨rfl, hNot⟩ := eq_of_application h
  rw [fault?, if_neg hNot]

/-! ## Which data are visited -/

theorem mem_visitedAll {node : Datum} {vs : List Datum} :
    node ∈ visitedAll vs ↔ ∃ v ∈ vs, node ∈ v.visited := by
  induction vs with
  | nil => simp [visitedAll]
  | cons v vs ih => simp [visitedAll, ih]

theorem visited_of_not_application {v : Datum} (h : v.application? = none) : v.visited = [v] := by
  unfold visited
  split
  case h_1 name args =>
    have hQuote : name = "quote" ∧ args.length = 1 := by
      by_contra hNot
      rw [application?, if_neg hNot] at h
      cases h
    rw [if_pos hQuote]
  case h_2 => rfl

theorem Reaches.mem_visited {v node : Datum} (h : Reaches v node) : node ∈ v.visited := by
  induction h with
  | self v =>
    cases hCall : v.application? with
    | none => simp [visited_of_not_application hCall]
    | some call => simp [visited_of_application hCall]
  | argument call mem _ ih =>
    rw [visited_of_application call, List.mem_append, mem_visitedAll]
    exact .inl ⟨_, mem, ih⟩

theorem reaches_of_mem_visited {v node : Datum} (h : node ∈ v.visited) : Reaches v node := by
  induction hDepth : v.depth using Nat.strongRecOn generalizing v with
  | ind depth ih =>
    cases hCall : v.application? with
    | none =>
      rw [visited_of_not_application hCall, List.mem_singleton] at h
      rw [h]
      exact .self v
    | some call =>
      obtain ⟨name, args⟩ := call
      rw [visited_of_application hCall, List.mem_append, mem_visitedAll, List.mem_singleton] at h
      rcases h with ⟨arg, hArg, hNode⟩ | rfl
      · have hLt := depth_lt_of_form (form_of_application hCall) hArg
        exact .argument hCall hArg (ih arg.depth (hDepth ▸ hLt) hNode rfl)
      · exact .self node

/-- Evaluation comes to what is reached through arguments. -/
theorem mem_visited_iff {v node : Datum} : node ∈ v.visited ↔ Reaches v node :=
  ⟨reaches_of_mem_visited, Reaches.mem_visited⟩

/-! ## The walk -/

/-- What evaluation does at one datum. -/
def visit (v : Datum) : Traced Unit :=
  ⟨v.record?.toList, orFault v.fault? ()⟩

/-- The visited data one after the other, and the value if nothing went wrong. -/
def walk (v : Datum) : Traced Datum := do
  forM v.visited visit
  return v.value

theorem mapM_walk (vs : List Datum) :
    vs.mapM walk = do
      forM (visitedAll vs) visit
      return values vs := by
  induction vs with
  | nil => rfl
  | cons v vs ih =>
    rw [List.mapM_cons, ih, visitedAll, values]
    simp [walk]

theorem applyUnlimited_eq_visit {v : Datum} {name : String} {args : List Datum}
    (h : v.application? = some (name, args)) :
    applyUnlimited name (values args) = do
      visit v
      return v.value := by
  have hLength : (values args).length = args.length := by
    rw [values_eq_map, List.length_map]
  rw [value_of_application h, visit, fault?_of_application h, record?, h, applyUnlimited, applyBy,
    applied]
  cases hOp : Operator.ofName? name with
  | none =>
    simp only [Option.map_some, hOp]
    rfl
  | some op =>
    simp only [Option.map_some, hOp, Option.bind_some, Operator.fold_eq, hLength]
    cases op.fault? ((values args).map toInteger) <;> rfl

theorem walk_of_application {v : Datum} {name : String} {args : List Datum}
    (h : v.application? = some (name, args)) :
    walk v = args.mapM walk >>= applyUnlimited name := by
  rw [walk, visited_of_application h, mapM_walk]
  simp [applyUnlimited_eq_visit h]

theorem walk_of_not_application {v : Datum} (h : v.application? = none) :
    walk v = ⟨[], orFault v.fault? v.value⟩ := by
  have hVisit : visit v = ⟨[], orFault v.fault? ()⟩ := by
    rw [visit, record?, h]
    rfl
  rw [walk, visited_of_not_application h, List.forM_cons, List.forM_nil, hVisit]
  cases v.fault? <;> rfl

/-- The walk comes to the arguments of an application by walks of their own. -/
theorem walk_eq_step : walk = evaluateOf walk := by
  funext v
  unfold evaluateOf evaluateBy
  fun_cases Datum.form v with
  | case1 | case2 | case3 | case4 | case5 => exact walk_of_not_application rfl
  | case6 name arg hName => exact walk_of_application (by simp [application?, hName])
  | case7 name args hArgs =>
    refine walk_of_application ?_
    have hLength : args.length ≠ 1 := by
      intro hLength
      obtain ⟨arg, rfl⟩ := List.length_eq_one_iff.mp hLength
      exact hArgs arg rfl
    simp [application?, hLength]
  | case8 v hNumber hString hBool hSymbol hList =>
    have hCall : v.application? = none := by
      unfold application?
      split
      · exact (hList _ _ rfl).elim
      · rfl
    have hFault : v.fault? = some (.malformedForm v.kind) := by
      unfold fault?
      split
      · exact (hNumber _ rfl).elim
      · exact (hString _ rfl).elim
      · exact (hBool _ rfl).elim
      · exact (hSymbol _ rfl).elim
      · exact (hList _ _ rfl).elim
      · rfl
    rw [walk_of_not_application hCall, hFault]
    rfl

/-! ## What a walk records -/

theorem forM_visit_of_faultless {vs : List Datum} (h : ∀ v ∈ vs, v.fault? = none) :
    forM vs visit = ⟨vs.filterMap record?, .ok ()⟩ := by
  induction vs with
  | nil => rfl
  | cons v vs ih =>
    obtain ⟨hv, hvs⟩ := List.forall_mem_cons.mp h
    have hVisit : visit v = ⟨v.record?.toList, .ok ()⟩ := by
      rw [visit, hv]
      rfl
    rw [List.forM_cons, ih hvs, hVisit, Traced.bind_of_ok rfl]
    cases hRecord : v.record? <;> simp [hRecord]

/-- A walk ends with the first datum where something goes wrong, and what is recorded there is the last
record. -/
theorem forM_visit_of_fault {before after : List Datum} {node : Datum} {e : Error}
    (hBefore : ∀ v ∈ before, v.fault? = none) (hNode : node.fault? = some e) :
    forM (before ++ node :: after) visit = ⟨(before ++ [node]).filterMap record?, .error e⟩ := by
  have hVisit : visit node = ⟨node.record?.toList, .error e⟩ := by
    rw [visit, hNode]
    rfl
  rw [List.forM_append, forM_visit_of_faultless hBefore, List.forM_cons, hVisit,
    Traced.bind_of_ok rfl, Traced.bind_of_error rfl, List.filterMap_append]
  cases hRecord : node.record? <;> simp [hRecord]

theorem walk_of_faultless {v : Datum} (h : ∀ node ∈ v.visited, node.fault? = none) :
    walk v = ⟨v.visited.filterMap record?, .ok v.value⟩ := by
  rw [walk, forM_visit_of_faultless h, Traced.bind_of_ok rfl]
  simp

theorem walk_of_fault {v node : Datum} {before after : List Datum} {e : Error}
    (hVisited : v.visited = before ++ node :: after) (hBefore : ∀ v ∈ before, v.fault? = none)
    (hNode : node.fault? = some e) :
    walk v = ⟨(before ++ [node]).filterMap record?, .error e⟩ := by
  rw [walk, hVisited, forM_visit_of_fault hBefore hNode, Traced.bind_of_error rfl]

end Datum

/-- Evaluation that does not nest too deeply is the walk along the visited data. -/
theorem evaluate_eq_walk {levels : Nat} {datum : Datum}
    (h : (evaluateWithin levels datum).result ≠ .error .evaluationTooDeep) :
    evaluateWithin levels datum = datum.walk := by
  have hWalk : Datum.walk = evaluation.unlimited := (evaluation.eq_step_iff _).mp Datum.walk_eq_step
  rw [hWalk]
  exact ((evaluation.settles datum).full_or_tooDeep levels).resolve_right h

/-- Either nothing goes wrong anywhere, or there is a first datum where something does. -/
theorem walk_cases (datum : Datum) :
    ((∀ node ∈ datum.visited, node.fault? = none) ∧
      datum.walk = ⟨datum.visited.filterMap Datum.record?, .ok datum.value⟩) ∨
    ∃ before node after e, datum.visited = before ++ node :: after ∧
      (∀ earlier ∈ before, earlier.fault? = none) ∧ node.fault? = some e ∧
      datum.walk = ⟨(before ++ [node]).filterMap Datum.record?, .error e⟩ := by
  cases hFault : datum.visited.findSome? Datum.fault? with
  | none =>
    have hNone := List.findSome?_eq_none_iff.mp hFault
    exact .inl ⟨hNone, Datum.walk_of_faultless hNone⟩
  | some e =>
    obtain ⟨before, node, after, hVisited, hNode, hBefore⟩ := List.findSome?_eq_some_iff.mp hFault
    exact .inr ⟨before, node, after, e, hVisited, hBefore, hNode,
      Datum.walk_of_fault hVisited hBefore hNode⟩

theorem message_record? {node : Datum} {name : String} {args : List Datum}
    (h : node.application? = some (name, args)) :
    node.record?.map Event.message = some (
      if (Operator.ofName? name).isSome then
        "applying " ++ name ++ " to " ++ toString args.length ++ " argument(s)"
      else "unknown operator " ++ Text.quoted name ++ ", yielding #f") := by
  rw [Datum.record?, h, ← Numeral.decimal_natCast]
  simp only [Option.map_some, Option.some.injEq]
  split <;> rfl

/-- Evaluation comes to the data that are reached through arguments of applications, from the left to the
right and to an application after its arguments. If it succeeds, nothing goes wrong at any of them, and there
is one record for each application among them, in their order. If it fails, the error is that of the first
of them where something goes wrong, and the records are those up to there, the beginning of all records. -/
theorem evaluation_in_postorder {levels : Nat} {datum : Datum}
    (h : (evaluateWithin levels datum).result ≠ .error .evaluationTooDeep) :
    (∀ node, node ∈ datum.visited ↔ datum.Reaches node) ∧
    (∀ v, (evaluateWithin levels datum).result = .ok v ↔
      (∀ node ∈ datum.visited, node.fault? = none) ∧ v = datum.value) ∧
    (∀ v, (evaluateWithin levels datum).result = .ok v →
      (evaluateWithin levels datum).events = datum.visited.filterMap Datum.record?) ∧
    (∀ e, (evaluateWithin levels datum).result = .error e →
      (evaluateWithin levels datum).events <+: datum.visited.filterMap Datum.record? ∧
      ∃ before node after, datum.visited = before ++ node :: after ∧
        (∀ earlier ∈ before, earlier.fault? = none) ∧ node.fault? = some e ∧
        (evaluateWithin levels datum).events = (before ++ [node]).filterMap Datum.record?) ∧
    ∀ (node : Datum) (name : String) (args : List Datum), node.application? = some (name, args) →
      node.record?.map Event.message = some (
        if (Operator.ofName? name).isSome then
          "applying " ++ name ++ " to " ++ toString args.length ++ " argument(s)"
        else "unknown operator " ++ Text.quoted name ++ ", yielding #f") := by
  rw [evaluate_eq_walk h]
  refine ⟨fun node => Datum.mem_visited_iff, ?_⟩
  rcases walk_cases datum with ⟨hNone, hWalk⟩ | ⟨before, node, after, e, hVisited, hBefore, hNode, hWalk⟩
  · rw [hWalk]
    refine ⟨fun v => ?_, fun _ _ => rfl, fun e hError => ?_, fun node name args => message_record?⟩
    · constructor
      · intro hOk
        cases hOk
        exact ⟨hNone, rfl⟩
      · rintro ⟨-, rfl⟩
        rfl
    · cases hError
  · rw [hWalk]
    refine ⟨fun v => ?_, fun v hOk => ?_, fun e' hError => ?_, fun node name args => message_record?⟩
    · constructor
      · intro hOk
        cases hOk
      · rintro ⟨hNone, -⟩
        have hNot := hNone node (by simp [hVisited])
        rw [hNode] at hNot
        cases hNot
    · cases hOk
    · cases hError
      refine ⟨?_, before, node, after, hVisited, hBefore, hNode, rfl⟩
      have hReached : before ++ [node] <+: datum.visited := ⟨after, by simp [hVisited]⟩
      exact hReached.filterMap Datum.record?

/-- The product and the unknown operator are done with before the division fails; the sum and the symbol are
never come to, and nothing inside the quotation counts. -/
theorem evaluation_in_postorder_division :
    let product := Datum.list [.symbol "*", .number 2, .number 3]
    let quoted := Datum.list [.symbol "quote", .list [.symbol "/", .number 1, .number 0]]
    let division := Datum.list [.symbol "/", .number 7, .number 0]
    let datum := Datum.list
      [.symbol "+", .list [.symbol "twice", product], quoted, division, .symbol "x"]
    (evaluateWithin 10000 datum).result = .error (.divisionByZero "/") ∧
    (evaluateWithin 10000 datum).events =
      [.applying "*" 2, .unknownOperator "twice", .applying "/" 2] ∧
    (evaluateWithin 10000 datum).events <+:
      [.applying "*" 2, .unknownOperator "twice", .applying "/" 2, .applying "+" 4] := by
  intro product quoted division datum
  have hDeep : (evaluateWithin 10000 datum).result ≠ .error .evaluationTooDeep :=
    fun hDeep => failsOnly_evaluate_of_depth (by decide) _ hDeep rfl
  have hResult : (evaluateWithin 10000 datum).result = .error (.divisionByZero "/") := by
    rfl
  obtain ⟨-, -, -, hError, -⟩ := evaluation_in_postorder hDeep
  obtain ⟨hPrefix, -⟩ := hError _ hResult
  exact ⟨hResult, rfl, hPrefix⟩

end MiniScheme
