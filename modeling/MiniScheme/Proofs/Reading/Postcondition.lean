import MiniScheme.Proofs.Reading.Merging
import MiniScheme.Reading.Rule

/-!
# What rules read

`Reads r P` is the contract that every rule of the grammar meets, whatever text is ahead of it:

* a success has read a text `w` that is in the relation `P` to its value;
* a mismatch lies within the text ahead, says what was found there, and expects nothing twice;
* an abort has one cause only, nesting that is too deep;
* in all three cases the cursor has moved over a part of the text ahead.

There is one lemma for each way of putting rules together. In a sequence the second rule may rely on what
the first has read (`reads_bind`), and an alternative may rely on the refusal of those before it
(`meets_choice`).
-/

namespace MiniScheme

/-! ## Cursors and the text between them -/

/-- The cursor `next` lies behind the text `w`, which is ahead of `c`. -/
structure Cursor.Reaches (c : Cursor) (w : List Char) (next : Cursor) : Prop where
  rest : c.rest = w ++ next.rest
  offset : next.offset = c.offset + w.length

namespace Cursor.Reaches

variable {c middle next : Cursor} {u w : List Char}

theorem refl (c : Cursor) : c.Reaches [] c :=
  ⟨rfl, rfl⟩

theorem trans (h : c.Reaches u middle) (h' : middle.Reaches w next) : c.Reaches (u ++ w) next := by
  refine ⟨?_, ?_⟩
  · rw [h.rest, h'.rest, List.append_assoc]
  · rw [h'.offset, h.offset, List.length_append, Nat.add_assoc]

/-- Both cursors have the same end of the text before them. -/
theorem finish (h : c.Reaches w next) :
    next.offset + next.rest.length = c.offset + c.rest.length := by
  rw [h.offset, h.rest, List.length_append, Nat.add_assoc]

/-- A cursor that did not move is the same cursor. -/
theorem eq_of_offset (h : c.Reaches w next) (hOffset : next.offset = c.offset) :
    w = [] ∧ next = c := by
  have hLength := h.offset
  have hNil : w = [] := List.eq_nil_of_length_eq_zero (by omega)
  subst hNil
  obtain ⟨offset, rest⟩ := c
  obtain ⟨offset', rest'⟩ := next
  have hRest := h.rest
  simp only [List.nil_append] at hRest hOffset
  rw [hRest, hOffset]
  exact ⟨rfl, rfl⟩

end Cursor.Reaches

/-! ## Mismatches in the text ahead -/

/-- A mismatch within the text ahead of `c`, with words for what was found. -/
structure Mismatch.Located (c : Cursor) (m : Mismatch) : Prop where
  low : c.offset ≤ m.position
  high : m.position ≤ c.offset + c.rest.length
  found : ∃ text, m.unexpected = some text ∧ text ≠ ""

namespace Mismatch.Located

variable {c next : Cursor} {m m' : Mismatch}

theorem of_reaches {w : List Char} (h : c.Reaches w next) (hm : m.Located next) : m.Located c := by
  have hOffset := h.offset
  have hFinish := h.finish
  have hLow := hm.low
  have hHigh := hm.high
  exact ⟨by omega, by omega, hm.found⟩

theorem merge (h : m.Located c) (h' : m'.Located c) : (m.merge m').Located c := by
  unfold Mismatch.merge
  split
  · exact h
  · split
    · exact h'
    · obtain ⟨text, hText, hNe⟩ := h.found
      refine ⟨h.low, h.high, text, ?_, hNe⟩
      simp [Mismatch.of, hText, Mismatch.nonempty, hNe]

theorem mergeOption (h : m.Located c) {seen : Option Mismatch}
    (hSeen : ∀ m' ∈ seen, m'.Located c) : (m.mergeOption seen).Located c := by
  cases seen with
  | none => exact h
  | some m' => exact h.merge (hSeen m' rfl)

/-- In words it starts with what was found. -/
theorem describe_eq (h : m.Located c) : ∃ more, m.describe = "unexpected " ++ more := by
  obtain ⟨text, hText, hNe⟩ := h.found
  have hFound : (nonempty m.unexpected).toList.map ("unexpected " ++ ·) = ["unexpected " ++ text] := by
    simp [hText, nonempty, Option.filter, hNe]
  unfold describe
  rw [hFound]
  by_cases hExpected : m.expected = []
  · rw [if_pos hExpected]
    exact ⟨text, rfl⟩
  · rw [if_neg hExpected]
    refine ⟨text ++ ("\n" ++ ("expecting " ++ alternatives m.expected)), ?_⟩
    show "unexpected " ++ text ++ "\n" ++ ("expecting " ++ alternatives m.expected) = _
    simp only [String.append_assoc]

end Mismatch.Located

/-! ## The contract -/

/-- What becomes of a rule that starts at `c` and reads texts and values in the relation `P`. -/
def Outcome.Meets {α : Type} (c : Cursor) (P : List Char → α → Prop) : Outcome α → Prop
  | .ok a next => ∃ w, c.Reaches w next ∧ P w a
  | .mismatch m next => (∃ w, c.Reaches w next) ∧ m.Located c
  | .abort e next => (∃ w, c.Reaches w next) ∧ e = .readingTooDeep

theorem Outcome.Meets.mono {α : Type} {c : Cursor} {P Q : List Char → α → Prop} {o : Outcome α}
    (h : o.Meets c P) (hPQ : ∀ w a, w <+: c.rest → P w a → Q w a) : o.Meets c Q := by
  cases o with
  | ok a next =>
    obtain ⟨w, hReach, hP⟩ := h
    exact ⟨w, hReach, hPQ w a ⟨next.rest, hReach.rest.symm⟩ hP⟩
  | mismatch m next => exact h
  | abort e next => exact h

theorem Outcome.Meets.reaches {α : Type} {c : Cursor} {P : List Char → α → Prop} {o : Outcome α}
    (h : o.Meets c P) : ∃ w, c.Reaches w o.next := by
  cases o with
  | ok a next =>
    obtain ⟨w, hReach, -⟩ := h
    exact ⟨w, hReach⟩
  | mismatch m next => exact h.1
  | abort e next => exact h.1

namespace Rule

variable {α β : Type}

/-- The rule reads texts and values in the relation `P`, from wherever it starts. -/
def Reads (r : Rule α) (P : List Char → α → Prop) : Prop :=
  ∀ c, (r.run c).Meets c P

variable {r : Rule α} {P Q : List Char → α → Prop}

theorem Reads.of_ok (hr : r.Reads P) {c : Cursor} {a : α} {next : Cursor}
    (hRun : r.run c = .ok a next) : ∃ w, c.Reaches w next ∧ P w a := by
  have h := hr c
  rwa [hRun] at h

theorem Reads.of_mismatch (hr : r.Reads P) {c : Cursor} {m : Mismatch} {next : Cursor}
    (hRun : r.run c = .mismatch m next) : (∃ w, c.Reaches w next) ∧ m.Located c := by
  have h := hr c
  rwa [hRun] at h

theorem Reads.of_abort (hr : r.Reads P) {c : Cursor} {e : Error} {next : Cursor}
    (hRun : r.run c = .abort e next) : (∃ w, c.Reaches w next) ∧ e = .readingTooDeep := by
  have h := hr c
  rwa [hRun] at h

theorem Reads.mono (h : r.Reads P) (hPQ : ∀ w a, P w a → Q w a) : r.Reads Q :=
  fun c => (h c).mono fun w a _ => hPQ w a

/-! ## Sequencing -/

@[simp] theorem run_discard (r : Rule α) (c : Cursor) :
    (discard r).run c = (r.run c).andThen fun _ next => .ok () next := rfl

theorem reads_pure {a : α} (h : P [] a) : (pure a : Rule α).Reads P :=
  fun c => ⟨[], .refl c, h⟩

/-- What lies behind a first text, as seen from its start. -/
theorem Meets.after {c middle : Cursor} {u : List Char} {Q : List Char → α → Prop} {o : Outcome α}
    (hReach : c.Reaches u middle) (h : o.Meets middle fun w a => Q (u ++ w) a) : o.Meets c Q := by
  cases o with
  | ok a next =>
    obtain ⟨w, hReach', hQ⟩ := h
    exact ⟨u ++ w, hReach.trans hReach', hQ⟩
  | mismatch m next =>
    obtain ⟨⟨w, hReach'⟩, hLocated⟩ := h
    exact ⟨⟨u ++ w, hReach.trans hReach'⟩, hLocated.of_reaches hReach⟩
  | abort e next =>
    obtain ⟨⟨w, hReach'⟩, hCause⟩ := h
    exact ⟨⟨u ++ w, hReach.trans hReach'⟩, hCause⟩

theorem reads_bind {f : α → Rule β} {Q : List Char → β → Prop} (hr : r.Reads P)
    (hf : ∀ u a, P u a → (f a).Reads fun w b => Q (u ++ w) b) : (r >>= f).Reads Q := by
  intro c
  rw [run_bind]
  cases hRun : r.run c with
  | mismatch m next => exact hr.of_mismatch hRun
  | abort e next => exact hr.of_abort hRun
  | ok a middle =>
    obtain ⟨u, hReach, hP⟩ := hr.of_ok hRun
    exact Meets.after hReach (hf u a hP middle)

theorem reads_map {f : α → β} {Q : List Char → β → Prop} (hr : r.Reads P)
    (hf : ∀ w a, P w a → Q w (f a)) : (f <$> r).Reads Q := by
  have hBind : (f <$> r) = r >>= fun a => pure (f a) := rfl
  rw [hBind]
  refine reads_bind hr fun u a hP => reads_pure ?_
  rw [List.append_nil]
  exact hf u a hP

theorem reads_discard {S : List Char → Prop} (hr : r.Reads fun w _ => S w) :
    (discard r).Reads fun w _ => S w :=
  reads_map (f := fun _ => ()) hr fun _ _ hS => hS

/-- A checked construction that cannot fail. -/
theorem reads_ofExcept {x : Except Error α} {a : α} (hx : x = .ok a) (h : P [] a) :
    (ofExcept x).Reads P := by
  subst hx
  exact reads_pure h

/-- Nesting that is too deep meets every contract. -/
theorem reads_abort : (abort .readingTooDeep : Rule α).Reads P :=
  fun c => ⟨⟨[], .refl c⟩, rfl⟩

/-! ## Characters and words -/

theorem quoted_ne_empty (text : String) : Text.quoted text ≠ "" := by
  intro h
  have := congrArg String.toList h
  simp [Text.quoted] at this

theorem found_ne_empty (c : Cursor) : c.found ≠ "" := by
  unfold Cursor.found
  split
  · decide
  · exact quoted_ne_empty _

/-- A mismatch at the cursor, in the words of a cursor at or after it. -/
theorem located_of (c next : Cursor) (expected : List String) :
    (Mismatch.of c.offset expected next.found).Located c :=
  ⟨Nat.le_refl _, Nat.le_add_right _ _, next.found, rfl, found_ne_empty next⟩

theorem reads_satisfy (p : Char → Bool) (expected : List String) :
    (satisfy p expected).Reads fun w ch => w = [ch] ∧ p ch = true := by
  rintro ⟨offset, rest⟩
  unfold satisfy
  cases rest with
  | nil => exact ⟨⟨[], .refl _⟩, located_of _ _ _⟩
  | cons ch rest =>
    dsimp only
    split
    · rename_i hp
      exact ⟨[ch], ⟨rfl, rfl⟩, rfl, hp⟩
    · exact ⟨⟨[], .refl _⟩, located_of _ _ _⟩

theorem reads_char (ch : Char) : (char ch).Reads fun w _ => w = [ch] := by
  refine (reads_satisfy _ _).mono ?_
  rintro w a ⟨rfl, ha⟩
  rw [eq_of_beq ha]

theorem reads_oneOf (chars : List Char) (expected : List String) :
    (oneOf chars expected).Reads fun w ch => w = [ch] ∧ ch ∈ chars := by
  refine (reads_satisfy _ _).mono ?_
  rintro w a ⟨rfl, ha⟩
  exact ⟨rfl, List.contains_iff_mem.mp ha⟩

theorem reads_noneOf (chars : List Char) :
    (noneOf chars).Reads fun w ch => w = [ch] ∧ ch ∉ chars := by
  refine (reads_satisfy _ _).mono ?_
  rintro w a ⟨rfl, ha⟩
  refine ⟨rfl, ?_⟩
  simpa using ha

theorem reads_notFollowedBy (p : Char → Bool) : (notFollowedBy p).Reads fun w _ => w = [] := by
  rintro ⟨offset, rest⟩
  unfold notFollowedBy
  cases rest with
  | nil => exact ⟨[], .refl _, rfl⟩
  | cons ch rest =>
    dsimp only
    split
    · exact ⟨⟨[], .refl _⟩, located_of ⟨offset, ch :: rest⟩ ⟨offset, ch :: rest⟩ []⟩
    · exact ⟨[], .refl _, rfl⟩

/-- Advancing along a word stops somewhere in the text ahead, and behind the whole word if it is there. -/
theorem advance_reaches (word : List Char) (c : Cursor) :
    ∃ w, c.Reaches w (advance word c).1 ∧ ((advance word c).2 = true → w = word) := by
  induction word generalizing c with
  | nil => exact ⟨[], .refl c, fun _ => rfl⟩
  | cons ch word ih =>
    obtain ⟨offset, rest⟩ := c
    cases rest with
    | nil => exact ⟨[], .refl _, fun h => by simp [advance] at h⟩
    | cons head rest =>
      simp only [advance]
      split
      · rename_i hHead
        subst hHead
        obtain ⟨w, hReach, hAll⟩ := ih ⟨offset + 1, rest⟩
        have hStep : Cursor.Reaches ⟨offset, head :: rest⟩ [head] ⟨offset + 1, rest⟩ := ⟨rfl, rfl⟩
        exact ⟨head :: w, hStep.trans hReach, fun h => by rw [hAll h]⟩
      · exact ⟨[], .refl _, fun h => by simp at h⟩

theorem reads_word (text : String) : (word text).Reads fun w a => w = text.toList ∧ a = text := by
  intro c
  obtain ⟨w, hReach, hAll⟩ := advance_reaches text.toList c
  unfold word
  dsimp only
  generalize hAdvance : advance text.toList c = reached at hReach hAll
  obtain ⟨next, whole⟩ := reached
  cases whole with
  | true => exact ⟨w, hReach, hAll rfl, rfl⟩
  | false => exact ⟨⟨w, hReach⟩, located_of _ _ _⟩

/-! ## Alternatives -/

/-- The rule does not match and leaves the cursor where it is. -/
def Refuses (r : Rule α) (c : Cursor) : Prop :=
  ∃ m, r.run c = .mismatch m c

theorem reads_attempt (hr : r.Reads P) : (attempt r).Reads P := by
  intro c
  unfold attempt
  dsimp only
  split
  · rename_i m next hRun
    exact ⟨⟨[], .refl c⟩, (hr.of_mismatch hRun).2⟩
  · exact hr c

/-- Every alternative meets the contract at `c`, as far as those before it refuse. -/
def Alternatives (c : Cursor) (P : List Char → α → Prop) : List (Rule α) → Prop
  | [] => True
  | r :: rs => (r.run c).Meets c P ∧ (Refuses r c → Alternatives c P rs)

theorem meets_choiceFrom {c : Cursor} {seen : Option Mismatch} {rs : List (Rule α)}
    (hSeen : ∀ m ∈ seen, m.Located c) (h : Alternatives c P rs) :
    (choiceFrom c seen rs).Meets c P := by
  induction rs generalizing seen with
  | nil =>
    refine ⟨⟨[], .refl c⟩, ?_⟩
    cases seen with
    | none => exact located_of c c []
    | some m => exact hSeen m rfl
  | cons r rs ih =>
    obtain ⟨hr, hrs⟩ := h
    unfold choiceFrom
    split
    · rename_i m next hRun
      rw [hRun] at hr
      obtain ⟨⟨w, hReach⟩, hLocated⟩ := hr
      split
      · rename_i hOffset
        obtain ⟨-, rfl⟩ := hReach.eq_of_offset hOffset
        refine ih ?_ (hrs ⟨m, hRun⟩)
        rintro m' ⟨⟩
        exact hLocated.mergeOption hSeen
      · exact ⟨⟨w, hReach⟩, hLocated.mergeOption hSeen⟩
    · exact hr

theorem meets_choice {c : Cursor} {rs : List (Rule α)} (h : Alternatives c P rs) :
    ((choice rs).run c).Meets c P :=
  meets_choiceFrom (by simp) h

theorem reads_choice {rs : List (Rule α)} (h : ∀ r ∈ rs, r.Reads P) : (choice rs).Reads P := by
  intro c
  refine meets_choice ?_
  induction rs with
  | nil => trivial
  | cons r rs ih =>
    exact ⟨h r List.mem_cons_self c, fun _ => ih fun r' hr' => h r' (List.mem_cons_of_mem r hr')⟩

theorem reads_optional (hr : r.Reads P) :
    (optional r).Reads fun w o =>
      (o = none ∧ w = [] ∧ ∃ c, Refuses r c) ∨ ∃ a, o = some a ∧ P w a := by
  intro c
  unfold optional
  dsimp only
  split
  · rename_i a next hRun
    obtain ⟨w, hReach, hP⟩ := hr.of_ok hRun
    exact ⟨w, hReach, .inr ⟨a, rfl, hP⟩⟩
  · rename_i m next hRun
    obtain ⟨⟨w, hReach⟩, hLocated⟩ := hr.of_mismatch hRun
    split
    · rename_i hOffset
      obtain ⟨rfl, rfl⟩ := hReach.eq_of_offset hOffset
      exact ⟨[], hReach, .inl ⟨rfl, rfl, next, m, hRun⟩⟩
    · exact ⟨⟨w, hReach⟩, hLocated⟩
  · rename_i e next hRun
    exact hr.of_abort hRun

/-! ## Repetition -/

/-- Texts one after the other, with their values. -/
inductive Concat (P : List Char → α → Prop) : List Char → List α → Prop
  | nil : Concat P [] []
  | cons {u w : List Char} {a : α} {as : List α} :
      P u a → Concat P w as → Concat P (u ++ w) (a :: as)

theorem concat_single {w : List Char} {a : α} (h : P w a) : Concat P w [a] := by
  have := Concat.cons h .nil
  rwa [List.append_nil] at this

/-- The induction follows the rounds. A round that is not the last adds its text in front of the texts of
the rounds after it. -/
theorem meets_repeated (hr : r.Reads P) (ahead : List Char) (c : Cursor) :
    (repeated r ahead c).Meets c (Concat P) := by
  fun_induction repeated r ahead c with
  | case1 c a next hRun =>
    obtain ⟨w, hReach, hP⟩ := hr.of_ok hRun
    exact ⟨w, hReach, concat_single hP⟩
  | case2 c a next hRun _ ahead hLt ih =>
    obtain ⟨u, hReach, hP⟩ := hr.of_ok hRun
    refine Meets.after hReach ?_
    cases hLater : repeated r ahead next with
    | ok as last =>
      rw [hLater] at ih
      obtain ⟨w, hReach', hConcat⟩ := ih
      exact ⟨w, hReach', .cons hP hConcat⟩
    | mismatch m last => rw [hLater] at ih; exact ih
    | abort e last => rw [hLater] at ih; exact ih
  | case3 c a next hRun =>
    obtain ⟨w, hReach, hP⟩ := hr.of_ok hRun
    exact ⟨w, hReach, concat_single hP⟩
  | case4 _ c m next hRun hOffset =>
    obtain ⟨⟨w, hReach⟩, -⟩ := hr.of_mismatch hRun
    obtain ⟨rfl, rfl⟩ := hReach.eq_of_offset hOffset
    exact ⟨[], hReach, .nil⟩
  | case5 _ c m next hRun => exact hr.of_mismatch hRun
  | case6 _ c e next hRun => exact hr.of_abort hRun

theorem reads_many (hr : r.Reads P) : (many r).Reads (Concat P) :=
  fun c => meets_repeated hr c.rest c

theorem reads_many1 (hr : r.Reads P) : (many1 r).Reads fun w as => as ≠ [] ∧ Concat P w as := by
  refine reads_bind hr fun u a hP => reads_bind (reads_many hr) fun w as hConcat => reads_pure ?_
  rw [List.append_nil]
  exact ⟨List.cons_ne_nil a as, .cons hP hConcat⟩

theorem reads_endBy {sep : Rule β} {S : List Char → Prop} (hr : r.Reads P)
    (hs : sep.Reads fun w _ => S w) :
    (endBy r sep).Reads (Concat fun w a => ∃ u s, w = u ++ s ∧ P u a ∧ S s) := by
  refine reads_many (reads_bind hr fun u a hP => reads_bind (reads_discard hs) fun s _ hS => ?_)
  refine reads_pure ⟨u, s, ?_, hP, hS⟩
  rw [List.append_nil]

theorem reads_sepBy {sep : Rule β} {S : List Char → Prop} (hr : r.Reads P)
    (hs : sep.Reads fun w _ => S w) :
    (sepBy r sep).Reads fun w as => (as = [] ∧ w = [] ∧ ∃ c, Refuses r c) ∨
      ∃ u a v as', w = u ++ v ∧ as = a :: as' ∧ P u a ∧
        Concat (fun w a => ∃ s u, w = s ++ u ∧ S s ∧ P u a) v as' := by
  have hItem : Reads (do discard sep; r) fun w a => ∃ s u, w = s ++ u ∧ S s ∧ P u a :=
    reads_bind (reads_discard hs) fun s _ hS => hr.mono fun u a hP => ⟨s, u, rfl, hS, hP⟩
  refine reads_bind (reads_optional hr) ?_
  rintro u o (⟨rfl, rfl, hRefused⟩ | ⟨a, rfl, hP⟩)
  · exact reads_pure (.inl ⟨rfl, rfl, hRefused⟩)
  · refine reads_bind (reads_many hItem) fun v as hConcat => reads_pure (.inr ?_)
    exact ⟨u, a, v, as, by rw [List.append_nil], rfl, hP, hConcat⟩

end Rule

end MiniScheme
