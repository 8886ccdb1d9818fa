import MiniScheme.Datum.Equality
import MiniScheme.Proofs.Datum.Normal
import MiniScheme.Proofs.Nesting.Recursion
import MiniScheme.Proofs.Trace

/-!
# Comparing and hashing

A comparison that does not run out of levels tells whether two data have one normal form. If it says that they
have, it has gone through both to the end, and if it runs out of levels, both are too high for it (`Decides`).
A hash goes through the whole datum (`succeedsIff_hashWithin`), and data of one normal form have one hash. So the
data that are kept one by one as different are one for each normal form (`IsKept`).
-/

namespace MiniScheme.Datum

/-! ## What a comparison tells -/

/-- What an outcome with a number of levels says about a fact and about the heights of what it compares. -/
def Decides (levels : Nat) (fact : Prop) (height height' : Nat) : Except Error Bool → Prop
  | .ok true => fact ∧ height ≤ levels
  | .ok false => ¬ fact
  | .error e => e = .recursionTooDeep ∧ levels < height ∧ levels < height'

theorem decides_of_iff {levels height height' : Nat} {fact : Prop} {b : Bool} (h : b = true ↔ fact)
    (hHeight : height ≤ levels) : Decides levels fact height height' (.ok b) := by
  cases b with
  | true => exact ⟨h.mp rfl, hHeight⟩
  | false => exact fun hFact => Bool.false_ne_true (h.mpr hFact)

/-- A comparison of first parts, and of second parts if the first are the same. -/
theorem Decides.and {levels : Nat} {fact fact' : Prop} {height height' other other' : Nat}
    {x y : Except Error Bool} (hx : Decides levels fact height height' x)
    (hy : Decides levels fact' other other' y) :
    Decides levels (fact ∧ fact') (max height other) (max height' other') (do if ← x then y else return false) := by
  cases x with
  | error e =>
    obtain ⟨hError, hLow, hLow'⟩ := hx
    exact ⟨hError, by omega, by omega⟩
  | ok b =>
    cases b with
    | false => exact fun hBoth => hx hBoth.1
    | true =>
      obtain ⟨hFact, hHeight⟩ := hx
      show Decides levels _ _ _ y
      cases y with
      | error e =>
        obtain ⟨hError, hLow, hLow'⟩ := hy
        exact ⟨hError, by omega, by omega⟩
      | ok b =>
        cases b with
        | false => exact fun hBoth => hy hBoth.2
        | true => exact ⟨⟨hFact, hy.1⟩, Nat.max_le.mpr ⟨hHeight, hy.2⟩⟩

/-- The same outcome one level further out. -/
theorem Decides.succ {levels height height' : Nat} {fact fact' : Prop} {x : Except Error Bool}
    (h : Decides levels fact height height' x) (hFact : fact ↔ fact') :
    Decides (levels + 1) fact' (height + 1) (height' + 1) x := by
  rw [← hFact]
  cases x with
  | error e => exact ⟨h.1, Nat.succ_lt_succ h.2.1, Nat.succ_lt_succ h.2.2⟩
  | ok b =>
    cases b with
    | true => exact ⟨h.1, Nat.succ_le_succ h.2⟩
    | false => exact h

theorem decides_sameItems {same : Datum → Datum → Except Error Bool} {levels : Nat}
    (h : ∀ v w, Decides levels (v.normal = w.normal) v.height w.height (same v w)) (xs ys : List Datum) :
    Decides levels (xs.map normal = ys.map normal) (itemsHeight xs) (itemsHeight ys) (sameItems same xs ys) := by
  induction xs generalizing ys with
  | nil =>
    cases ys with
    | nil => exact ⟨rfl, Nat.zero_le _⟩
    | cons y ys => exact nofun
  | cons x xs ih =>
    cases ys with
    | nil => exact nofun
    | cons y ys =>
      rw [List.map_cons, List.map_cons, List.cons.injEq]
      exact (h x y).and (ih ys)

theorem decides_sameOf {same : Datum → Datum → Except Error Bool} {levels : Nat}
    (h : ∀ v w, Decides levels (v.normal = w.normal) v.height w.height (same v w)) (v w : Datum) :
    Decides (levels + 1) (v.normal = w.normal) v.height w.height (sameOf same v w) := by
  by_cases hKind : v.kind = w.kind
  · cases v with
    | list items =>
      cases w with
      | list items' => exact (decides_sameItems h items items').succ (by simp [normal])
      | _ => cases hKind
    | dotted items tail =>
      cases w with
      | dotted items' tail' =>
        exact ((decides_sameItems h items items').and (h tail tail')).succ (by simp [normal])
      | _ => cases hKind
    | vector items =>
      cases w with
      | vector items' => exact (decides_sameItems h items items').succ (by simp [normal])
      | _ => cases hKind
    | _ =>
      cases w
      all_goals try cases hKind
      all_goals exact decides_of_iff (by simp [normal, Binary64.same_iff_normal_eq]) (Nat.le_add_left 1 levels)
  · have hDifferent : v.normal ≠ w.normal := by
      intro hNormal
      apply hKind
      rw [← kind_normal, hNormal, kind_normal]
    have hFalse : sameOf same v w = .ok false := by
      unfold sameOf
      split
      case h_12 => rfl
      all_goals exact absurd rfl hKind
    rw [hFalse]
    exact hDifferent

theorem decides_sameWithin (levels : Nat) (v w : Datum) :
    Decides levels (v.normal = w.normal) v.height w.height (v.sameWithin levels w) := by
  induction levels generalizing v w with
  | zero => exact ⟨rfl, v.height_pos, w.height_pos⟩
  | succ levels ih => exact decides_sameOf ih v w

section Comparisons

variable {levels : Nat} {v w : Datum}

theorem of_sameWithin_eq_error {e : Error} (h : v.sameWithin levels w = .error e) :
    e = .recursionTooDeep ∧ levels < v.height ∧ levels < w.height := by
  have hDecides := decides_sameWithin levels v w
  rwa [h] at hDecides

theorem normal_ne_of_sameWithin (h : v.sameWithin levels w = .ok false) : v.normal ≠ w.normal := by
  have hDecides := decides_sameWithin levels v w
  rwa [h] at hDecides

theorem exists_sameWithin (h : v.height ≤ levels ∨ w.height ≤ levels) : ∃ b, v.sameWithin levels w = .ok b := by
  cases hSame : v.sameWithin levels w with
  | error e =>
    obtain ⟨-, hHigh, hHigh'⟩ := of_sameWithin_eq_error hSame
    omega
  | ok b => exact ⟨b, rfl⟩

theorem sameWithin_eq_true_iff :
    v.sameWithin levels w = .ok true ↔ v.normal = w.normal ∧ v.height ≤ levels := by
  constructor
  · intro hSame
    have hDecides := decides_sameWithin levels v w
    rwa [hSame] at hDecides
  · rintro ⟨hNormal, hHeight⟩
    obtain ⟨b, hSame⟩ := exists_sameWithin (w := w) (.inl hHeight)
    cases b with
    | true => exact hSame
    | false => exact absurd hNormal (normal_ne_of_sameWithin hSame)

end Comparisons

/-- Data are the same if a comparison says so, with some number of levels. -/
def Same (v w : Datum) : Prop :=
  ∃ levels, v.sameWithin levels w = .ok true

theorem same_iff_normal_eq {v w : Datum} : v.Same w ↔ v.normal = w.normal := by
  constructor
  · rintro ⟨levels, hSame⟩
    exact (sameWithin_eq_true_iff.mp hSame).1
  · intro hNormal
    exact ⟨v.height, sameWithin_eq_true_iff.mpr ⟨hNormal, Nat.le_refl _⟩⟩

/-- The computation succeeds if the fact holds, and otherwise it runs out of levels. -/
def SucceedsIff {α : Type} (fact : Prop) : Except Error α → Prop
  | .ok _ => fact
  | .error e => e = .recursionTooDeep ∧ ¬ fact

section SucceedsIff

variable {α β : Type} {fact fact' : Prop}

theorem SucceedsIff.congr {x : Except Error α} (h : SucceedsIff fact x) (hFact : fact ↔ fact') :
    SucceedsIff fact' x := by
  rwa [← hFact]

theorem SucceedsIff.bind {x : Except Error α} {f : α → Except Error β} (hx : SucceedsIff fact x)
    (hf : ∀ a, SucceedsIff fact' (f a)) : SucceedsIff (fact ∧ fact') (x >>= f) := by
  cases x with
  | error e => exact ⟨hx.1, fun hBoth => hx.2 hBoth.1⟩
  | ok a =>
    have hLater := hf a
    show SucceedsIff _ (f a)
    cases hResult : f a with
    | error e =>
      rw [hResult] at hLater
      exact ⟨hLater.1, fun hBoth => hLater.2 hBoth.2⟩
    | ok b =>
      rw [hResult] at hLater
      exact ⟨hx, hLater⟩

theorem SucceedsIff.map {x : Except Error α} (h : SucceedsIff fact x) (f : α → β) :
    SucceedsIff fact (x >>= fun a => pure (f a)) := by
  cases x with
  | error e => exact h
  | ok a => exact h

theorem succeedsIff_mapM {f : Datum → Except Error α} {levels : Nat}
    (h : ∀ v, SucceedsIff (v.height ≤ levels) (f v)) (items : List Datum) :
    SucceedsIff (itemsHeight items ≤ levels) (items.mapM f) := by
  induction items with
  | nil => exact Nat.zero_le levels
  | cons item items ih =>
    rw [List.mapM_cons]
    exact ((h item).bind fun code => ih.map (code :: ·)).congr Nat.max_le.symm

end SucceedsIff

theorem succeedsIff_hashWithin (levels : Nat) (v : Datum) :
    SucceedsIff (v.height ≤ levels) (v.hashWithin levels) := by
  induction levels generalizing v with
  | zero => exact ⟨rfl, Nat.not_le.mpr v.height_pos⟩
  | succ levels ih =>
    cases v with
    | list items => exact ((succeedsIff_mapM ih items).map hash).congr Nat.succ_le_succ_iff.symm
    | vector items => exact ((succeedsIff_mapM ih items).map hash).congr Nat.succ_le_succ_iff.symm
    | dotted items tail =>
      refine ((succeedsIff_mapM ih items).bind fun codes => (ih tail).map (mixHash (hash codes))).congr ?_
      rw [height, Nat.succ_le_succ_iff, Nat.max_le]
    | _ => exact Nat.le_add_left 1 levels

theorem height_le_of_hashWithin {levels : Nat} {v : Datum} {code : UInt64} (h : v.hashWithin levels = .ok code) :
    v.height ≤ levels := by
  have hReached := succeedsIff_hashWithin levels v
  rwa [h] at hReached

theorem hashWithin_normal (levels : Nat) (v : Datum) : v.normal.hashWithin levels = v.hashWithin levels := by
  induction levels generalizing v with
  | zero => rfl
  | succ levels ih =>
    have hItems := mapM_map_normal ih
    cases v with
    | list items => simp only [normal, normalItems_eq_map, hashWithin, hItems]
    | dotted items tail => simp only [normal, normalItems_eq_map, hashWithin, hItems, ih]
    | vector items => simp only [normal, normalItems_eq_map, hashWithin, hItems]
    | float x => simp only [normal, hashWithin, Binary64.code_normal]
    | complex re im => simp only [normal, hashWithin, Binary64.code_normal]
    | _ => rfl

/-! ## Different data of a list -/

/-- What is kept of some data: each datum with its hash, one for every normal form among the data. -/
structure IsKept (hashing : Nat) (data : List Datum) (kept : List (UInt64 × Datum)) : Prop where
  hashed : ∀ entry ∈ kept, entry.2.hashWithin hashing = .ok entry.1
  nodup : (kept.map (·.2.normal)).Nodup
  mem_iff : ∀ form, form ∈ kept.map (·.2.normal) ↔ ∃ v ∈ data, v.normal = form
  reached : ∀ v ∈ data, v.height ≤ hashing

/-- Whether a normal form is kept is told from the data of its hash. -/
theorem known_iff {hashing comparing : Nat} {kept : List (UInt64 × Datum)} {v : Datum} {code : UInt64}
    {known : Bool}
    (hHashed : ∀ entry ∈ kept, entry.2.hashWithin hashing = .ok entry.1)
    (hCode : v.hashWithin hashing = .ok code)
    (h : (kept.filter (·.1 == code)).anyM (fun entry => entry.2.sameWithin comparing v) = .ok known) :
    known = true ↔ v.normal ∈ kept.map (·.2.normal) := by
  obtain ⟨hTrue, hFalse⟩ := anyM_eq_ok h
  constructor
  · intro hKnown
    obtain ⟨entry, hMem, hSame⟩ := hTrue hKnown
    exact List.mem_map.mpr ⟨entry, List.mem_of_mem_filter hMem, (sameWithin_eq_true_iff.mp hSame).1⟩
  · intro hMem
    obtain ⟨entry, hEntry, hNormal⟩ := List.mem_map.mp hMem
    have hSameCode : entry.1 = code := by
      have hHash := hHashed entry hEntry
      rw [← hashWithin_normal, hNormal, hashWithin_normal, hCode] at hHash
      exact (Except.ok.inj hHash).symm
    by_contra hUnknown
    have hCompared := hFalse (Bool.eq_false_iff.mpr hUnknown) entry
      (List.mem_filter.mpr ⟨hEntry, beq_iff_eq.mpr hSameCode⟩)
    exact normal_ne_of_sameWithin hCompared hNormal

/-- A datum is kept if its normal form is new. -/
theorem IsKept.insert {hashing comparing : Nat} {data : List Datum} {kept kept' : List (UInt64 × Datum)} {v : Datum}
    (h : IsKept hashing data kept) (hInsert : insertWithin hashing comparing kept v = .ok kept') :
    IsKept hashing (data ++ [v]) kept' := by
  obtain ⟨code, hCode, hLater⟩ := exists_of_bind_ok hInsert
  obtain ⟨known, hKnown, hResult⟩ := exists_of_bind_ok hLater
  have hIff := known_iff h.hashed hCode hKnown
  have hReached : ∀ w ∈ data ++ [v], w.height ≤ hashing := by
    simpa [or_imp, forall_and] using ⟨h.reached, height_le_of_hashWithin hCode⟩
  cases hResult
  cases known with
  | true =>
    refine ⟨h.hashed, h.nodup, fun form => ?_, hReached⟩
    rw [if_pos rfl, h.mem_iff]
    constructor
    · rintro ⟨w, hMem, hForm⟩
      exact ⟨w, List.mem_append_left [v] hMem, hForm⟩
    · rintro ⟨w, hMem, rfl⟩
      rcases List.mem_append.mp hMem with hOld | hNew
      · exact ⟨w, hOld, rfl⟩
      · rw [List.mem_singleton.mp hNew]
        exact (h.mem_iff v.normal).mp (hIff.mp rfl)
  | false =>
    refine ⟨?_, ?_, fun form => ?_, hReached⟩
    · exact List.forall_mem_cons.mpr ⟨hCode, h.hashed⟩
    · exact List.nodup_cons.mpr ⟨fun hMem => Bool.false_ne_true (hIff.mpr hMem), h.nodup⟩
    · show form ∈ v.normal :: kept.map (·.2.normal) ↔ _
      rw [List.mem_cons, h.mem_iff]
      simp [or_comm, or_and_right, exists_or, eq_comm]

theorem IsKept.foldlM {hashing comparing : Nat} {data more : List Datum} {kept kept' : List (UInt64 × Datum)}
    (h : IsKept hashing data kept) (hFold : more.foldlM (insertWithin hashing comparing) kept = .ok kept') :
    IsKept hashing (data ++ more) kept' := by
  induction more generalizing data kept with
  | nil =>
    cases hFold
    rwa [List.append_nil]
  | cons v more ih =>
    rw [List.foldlM_cons] at hFold
    obtain ⟨next, hInsert, hLater⟩ := exists_of_bind_ok hFold
    have hKept := ih (h.insert hInsert) hLater
    rwa [List.append_assoc] at hKept

/-- What is kept of the same data in another order is as much. -/
theorem IsKept.length_eq {hashing hashing' : Nat} {data data' : List Datum} {kept kept' : List (UInt64 × Datum)}
    (h : IsKept hashing data kept) (h' : IsKept hashing' data' kept') (hPerm : data.Perm data') :
    kept.length = kept'.length := by
  have hForms : (kept.map (·.2.normal)).Perm (kept'.map (·.2.normal)) := by
    refine (List.perm_ext_iff_of_nodup h.nodup h'.nodup).mpr fun form => ?_
    rw [h.mem_iff, h'.mem_iff]
    simp only [hPerm.mem_iff]
  simpa using hForms.length_eq

end MiniScheme.Datum
