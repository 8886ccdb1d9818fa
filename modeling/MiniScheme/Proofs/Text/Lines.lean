import MiniScheme.Proofs.Text.Coordinates
import MiniScheme.Text.Lines

/-!
# Two ways to count lines

A text is cut into lines at every line end, but the place of an offset counts line feeds only. The two agree
up to the first line end that has no line feed (`isStrayEnd`); after it, an offset lies as many lines below
its place as there are such line ends before it (`exists_inLine`).
-/

namespace MiniScheme.Text

/-! ## Offsets in lines -/

/-- The offset lies in the line with this number, so many characters after its start. -/
def InLine (source : List Char) (offset line column : Nat) : Prop :=
  ∃ above own below, lines source = above ++ own :: below ∧ above.length = line ∧
    column < own.length ∧ above.flatten.length + column = offset

theorem InLine.le {source : List Char} {offset line column line' column' : Nat}
    (h : InLine source offset line column) (h' : InLine source offset line' column') : line' ≤ line := by
  obtain ⟨above, own, below, hLines, rfl, hColumn, rfl⟩ := h
  obtain ⟨above', own', below', hLines', rfl, -, hOffset⟩ := h'
  by_contra hLt
  -- the whole line of the offset would lie above it
  have hPrefix : above ++ [own] <+: above' := by
    refine List.prefix_of_prefix_length_le ⟨below, ?_⟩ ⟨own' :: below', hLines'.symm⟩ (by simp; omega)
    rw [hLines]
    simp
  obtain ⟨more, rfl⟩ := hPrefix
  simp only [List.flatten_append, List.flatten_singleton, List.length_append] at hOffset
  omega

/-- An offset has one line and one column in it. -/
theorem InLine.unique {source : List Char} {offset line column line' column' : Nat}
    (h : InLine source offset line column) (h' : InLine source offset line' column') :
    line = line' ∧ column = column' := by
  have hLine : line = line' := Nat.le_antisymm (h'.le h) (h.le h')
  obtain ⟨above, own, below, hLines, rfl, -, rfl⟩ := h
  obtain ⟨above', own', below', hLines', rfl, -, hOffset⟩ := h'
  obtain ⟨rfl, -⟩ := List.append_inj (hLines.symm.trans hLines') hLine
  exact ⟨rfl, by omega⟩

/-- The characters of the text are those of its lines. -/
theorem InLine.getElem? {source : List Char} {offset line column : Nat}
    (h : InLine source offset line column) :
    ∃ own, (lines source)[line]? = some own ∧ own[column]? = source[offset]? := by
  obtain ⟨above, own, below, hLines, rfl, hColumn, rfl⟩ := h
  refine ⟨own, by simp [hLines], ?_⟩
  have hText : source = above.flatten ++ (own ++ below.flatten) := by
    rw [← flatten_lines source, hLines]
    simp
  rw [hText, List.getElem?_append_right (by omega), Nat.add_sub_cancel_left,
    List.getElem?_append_left hColumn]

/-! ## The first line -/

theorem exists_lines_cons (c : Char) (rest : List Char) :
    ∃ line more, lines (c :: rest) = (c :: line) :: more := by
  generalize hText : c :: rest = text
  fun_cases lines text with
  | case1 => cases hText
  | case2 | case3 | case4 | case5 =>
    cases hText
    exact ⟨_, _, rfl⟩

/-- Characters that end no line are all in the first line, before what follows them there. -/
theorem lines_append {text rest first : List Char} {more : List (List Char)}
    (hText : ∀ c ∈ text, c ∉ lineEnds) (hRest : lines rest = first :: more) :
    lines (text ++ rest) = (text ++ first) :: more := by
  induction text with
  | nil => exact hRest
  | cons c text ih =>
    obtain ⟨hc, hOthers⟩ := List.forall_mem_cons.mp hText
    have hPair : ∀ after, c = '\r' → text ++ rest = '\n' :: after → False := by
      rintro - rfl
      exact (hc (by decide)).elim
    rw [List.cons_append, lines, if_neg hc, ih hOthers, List.cons_append]
    exact hPair

/-! ## Line ends without a line feed -/

/-- There is a line end here which is no line feed and has none after it as the second half of a pair. -/
def isStrayEnd (source : List Char) (i : Nat) : Bool :=
  match source.drop i with
  | [] => false
  | '\r' :: '\n' :: _ => false
  | c :: _ => c != '\n' && lineEnds.contains c

/-- How many of them there are before an offset. -/
def strayEnds (source : List Char) (offset : Nat) : Nat :=
  (List.range offset).countP (isStrayEnd source)

theorem strayEnds_eq_zero_iff {source : List Char} {offset : Nat} :
    strayEnds source offset = 0 ↔ ∀ i < offset, isStrayEnd source i = false := by
  simp [strayEnds, List.countP_eq_zero]

theorem strayEnds_cons (c : Char) (rest : List Char) (offset : Nat) :
    strayEnds (c :: rest) (offset + 1) =
      (if isStrayEnd (c :: rest) 0 then 1 else 0) + strayEnds rest offset := by
  rw [strayEnds, List.range_succ_eq_map, List.countP_cons, List.countP_map, Nat.add_comm]
  rfl

theorem isStrayEnd_zero {c : Char} {rest : List Char}
    (h : ∀ more, c = '\r' → rest = '\n' :: more → False) :
    isStrayEnd (c :: rest) 0 = (c != '\n' && lineEnds.contains c) := by
  unfold isStrayEnd
  split
  case h_1 hNil => cases hNil
  case h_2 more hPair =>
    cases hPair
    exact (h more rfl rfl).elim
  case h_3 hCons =>
    cases hCons
    rfl

/-! ## Places -/

theorem afterFeed_cons (c : Char) (before : List Char) :
    afterFeed (c :: before) =
      if c = '\n' ∨ '\n' ∈ before then afterFeed before else afterFeed before + 1 := by
  rw [afterFeed, List.reverse_cons, List.takeWhile_append]
  by_cases hMem : '\n' ∈ before
  · have hShort : ((before.reverse).takeWhile (· != '\n')).length ≠ before.reverse.length := by
      intro hLength
      have hAll := (List.takeWhile_prefix (· != '\n')).eq_of_length hLength
      have := List.takeWhile_eq_self_iff.mp hAll '\n' (List.mem_reverse.mpr hMem)
      simp at this
    rw [if_neg hShort, if_pos (.inr hMem), afterFeed]
  · have hAll : before.reverse.takeWhile (· != '\n') = before.reverse := by
      rw [List.takeWhile_eq_self_iff]
      intro ch hch
      rw [bne_iff_ne]
      rintro rfl
      exact hMem (List.mem_reverse.mp hch)
    rw [if_pos (by rw [hAll]), afterFeed, hAll]
    by_cases hFeed : c = '\n'
    · simp [hFeed]
    · simp [hFeed, hMem]

/-! ## Both together -/

section

variable {source rest first own : List Char} {more : List (List Char)} {c : Char}
  {offset line column : Nat}

theorem inLine_first (hLines : lines source = first :: more) (h : column < first.length) :
    InLine source column 0 column :=
  ⟨[], first, more, hLines, rfl, h, by simp⟩

theorem InLine.below (h : InLine rest offset line column) (hLines : lines source = first :: lines rest) :
    InLine source (first.length + offset) (line + 1) column := by
  obtain ⟨above, own, below, hRest, rfl, hColumn, rfl⟩ := h
  refine ⟨first :: above, own, below, by rw [hLines, hRest, List.cons_append], rfl, hColumn, ?_⟩
  rw [List.flatten_cons, List.length_append, Nat.add_assoc]

/-- A character in front moves the columns of the first line. -/
theorem InLine.cons (h : InLine rest offset line column) (hRest : lines rest = own :: more)
    (hLines : lines (c :: rest) = (c :: own) :: more) :
    InLine (c :: rest) (offset + 1) line (if line = 0 then column + 1 else column) := by
  obtain ⟨above, this, below, hSplit, rfl, hColumn, rfl⟩ := h
  cases above with
  | nil =>
    obtain ⟨rfl, rfl⟩ := List.cons_eq_cons.mp (hRest.symm.trans hSplit)
    exact ⟨[], c :: own, more, hLines, rfl, by simpa using hColumn, by simp⟩
  | cons top above =>
    obtain ⟨rfl, rfl⟩ := List.cons_eq_cons.mp (hRest.symm.trans hSplit)
    refine ⟨(c :: own) :: above, this, below, hLines, rfl, by simpa using hColumn, ?_⟩
    simp
    omega

end

/-- An offset lies as many lines below its place as there are line ends without a line feed before it, and in
the column of its place if there are none. -/
theorem exists_inLine {source : List Char} {offset : Nat} (h : offset < source.length) :
    ∃ column, InLine source offset ((source.take offset).count '\n' + strayEnds source offset) column ∧
      (strayEnds source offset = 0 → column = afterFeed (source.take offset)) := by
  fun_induction lines source generalizing offset with
  | case1 => simp at h
  | case2 rest ih =>
    have hLines : lines ('\r' :: '\n' :: rest) = ['\r', '\n'] :: lines rest := by
      rw [lines]
    rcases offset with _ | _ | offset
    · exact ⟨0, inLine_first hLines (by simp), fun _ => rfl⟩
    · exact ⟨1, inLine_first hLines (by simp), fun _ => rfl⟩
    · -- both characters of the pair lie before the offset
      obtain ⟨column, hIn, hColumn⟩ := ih (Nat.lt_of_add_lt_add_right h)
      have hStray : strayEnds ('\r' :: '\n' :: rest) (offset + 2) = strayEnds rest offset := by
        simp [strayEnds_cons, isStrayEnd]
      refine ⟨column, ?_, fun hNone => ?_⟩
      · have hBelow := hIn.below hLines
        rw [hStray, List.take_succ_cons, List.take_succ_cons, List.count_cons_of_ne (by decide),
          List.count_cons_self, Nat.add_right_comm _ 1 (strayEnds rest offset)]
        rwa [List.length_cons, List.length_singleton, Nat.add_comm, ← Nat.add_assoc] at hBelow
      · rw [hColumn (hStray ▸ hNone), List.take_succ_cons, List.take_succ_cons, afterFeed_cons,
          if_pos (by simp), afterFeed_cons, if_pos (by simp)]
  | case3 c rest hPair hEnd ih =>
    have hLines : lines (c :: rest) = [c] :: lines rest := by
      rw [lines, if_pos hEnd]
      exact hPair
    cases offset with
    | zero => exact ⟨0, inLine_first hLines (by simp), fun _ => rfl⟩
    | succ offset =>
      obtain ⟨column, hIn, hColumn⟩ := ih (Nat.lt_of_add_lt_add_right h)
      have hBelow := hIn.below hLines
      rw [List.length_singleton, Nat.add_comm] at hBelow
      rw [List.take_succ_cons, strayEnds_cons, isStrayEnd_zero hPair]
      by_cases hFeed : c = '\n'
      · subst hFeed
        refine ⟨column, ?_, fun hNone => ?_⟩
        · simpa [Nat.add_right_comm] using hBelow
        · rw [afterFeed_cons, if_pos (.inl rfl)]
          exact hColumn (by simpa using hNone)
      · -- this line end is one more than the place counts
        have hStray : (c != '\n' && lineEnds.contains c) = true := by simpa using ⟨hFeed, hEnd⟩
        rw [if_pos hStray, List.count_cons_of_ne hFeed, Nat.add_left_comm, Nat.add_comm 1]
        exact ⟨column, hBelow, fun hNone => by omega⟩
  | case4 c rest hPair hEnd hNone ih =>
    have hLines : lines (c :: rest) = [[c]] := by
      rw [lines, if_neg hEnd, hNone]
      exact hPair
    have hRest : rest = [] := by
      rw [← flatten_lines rest, hNone]
      rfl
    have hZero : offset = 0 := by
      rw [hRest, List.length_singleton] at h
      omega
    subst hZero
    exact ⟨0, inLine_first hLines (by simp), fun _ => rfl⟩
  | case5 c rest hPair hEnd line more hSome ih =>
    have hLines : lines (c :: rest) = (c :: line) :: more := by
      rw [lines, if_neg hEnd, hSome]
      exact hPair
    have hFeed : c ≠ '\n' := by
      rintro rfl
      exact hEnd (by decide)
    cases offset with
    | zero => exact ⟨0, inLine_first hLines (by simp), fun _ => rfl⟩
    | succ offset =>
      obtain ⟨column, hIn, hColumn⟩ := ih (Nat.lt_of_add_lt_add_right h)
      have hCons := hIn.cons hSome hLines
      have hStray : strayEnds (c :: rest) (offset + 1) = strayEnds rest offset := by
        rw [strayEnds_cons, isStrayEnd_zero hPair, if_neg (by simpa using fun _ => hEnd), Nat.zero_add]
      rw [List.take_succ_cons, hStray, List.count_cons_of_ne hFeed]
      refine ⟨_, hCons, fun hNone => ?_⟩
      -- the column grows as long as no line feed has come
      have hZero : (rest.take offset).count '\n' + strayEnds rest offset = 0 ↔
          ¬ (c = '\n' ∨ '\n' ∈ rest.take offset) := by
        rw [hNone, Nat.add_zero, List.count_eq_zero, or_iff_right hFeed]
      rw [afterFeed_cons, hColumn hNone]
      by_cases hMem : c = '\n' ∨ '\n' ∈ rest.take offset
      · rw [if_pos hMem, if_neg (fun h => hZero.mp h hMem)]
      · rw [if_neg hMem, if_pos (hZero.mpr hMem)]

end MiniScheme.Text
