import MiniScheme.Proofs.Grammar.TokenRun
import MiniScheme.Proofs.Binary64.Nearest

/-!
# Literals of doubles

A decimal fraction and the parts of a complex number are read to doubles. Two ways lead there: digits with a
point are rounded as a fraction, and digits without one are first read to an integer. Both round the exact
value of the text correctly, so the double depends on that value alone (`doubles_correctly_rounded`).
-/

namespace MiniScheme.Grammar

open Rule

/-! ## Texts and exact values -/

/-- The text consists of decimal digits, and there is at least one. -/
structure IsDigits (ds : List Char) : Prop where
  ne_nil : ds ≠ []
  all_digits : ∀ d ∈ ds, d.isDigit = true

/-- The value of digits before and after a point. -/
def pointValue (whole fraction : List Char) : ℚ :=
  positional 10 whole + positional 10 fraction / 10 ^ fraction.length

/-- The text of a part of a complex number, and its value. -/
inductive PartText : List Char → ℚ → Prop
  | plain {ds : List Char} : IsDigits ds → PartText ds (positional 10 ds)
  | marked {ds : List Char} : IsDigits ds → PartText ('#' :: 'd' :: ds) (positional 10 ds)
  | point {whole fraction : List Char} : IsDigits whole → IsDigits fraction →
      PartText (whole ++ '.' :: fraction) (pointValue whole fraction)

theorem positional_append (base : Nat) (x y : List Char) :
    positional base (x ++ y) = base ^ y.length * positional base x + positional base y := by
  simp only [positional, List.reverse_append, List.map_append, Nat.ofDigits_append, List.length_map,
    List.length_reverse]
  exact Nat.add_comm _ _

theorem positional_zeros (base k : Nat) : positional base (List.replicate k '0') = 0 := by
  induction k with
  | zero => rfl
  | succ k ih =>
    rw [List.replicate_succ', positional_concat, ih]
    rfl

theorem value_of_isDigits {ds : List Char} (h : IsDigits ds) :
    Numeral.value 10 ds = positional 10 ds :=
  value_of_mem_radices (show ⟨[], Char.isDigit, 10⟩ ∈ radices by simp [radices]) h.all_digits

theorem ofNat_digits {ds : List Char} (h : IsDigits ds) :
    Binary64.ofNat (Numeral.value 10 ds) = Binary64.ofRat (positional 10 ds) := by
  rw [Binary64.ofNat, Binary64.nearest_eq_ofRat _ Nat.one_pos, value_of_isDigits h, Nat.cast_one,
    div_one]

theorem ofDecimal_digits {whole fraction : List Char} (hWhole : IsDigits whole)
    (hFraction : IsDigits fraction) :
    Binary64.ofDecimal whole fraction = Binary64.ofRat (pointValue whole fraction) := by
  have hBoth : IsDigits (whole ++ fraction) :=
    ⟨by simp [hWhole.ne_nil], List.forall_mem_append.mpr ⟨hWhole.all_digits, hFraction.all_digits⟩⟩
  have hDen : 0 < Nat.pow 10 fraction.length := Nat.pow_pos (by decide)
  have hValue : (positional 10 (whole ++ fraction) : ℚ) / (Nat.pow 10 fraction.length : ℕ) =
      pointValue whole fraction := by
    rw [positional_append, pointValue, Nat.pow_eq]
    push_cast
    field_simp
  rw [Binary64.ofDecimal, Binary64.nearest_eq_ofRat _ hDen, value_of_isDigits hBoth, hValue]

/-! ## Running the rules -/

variable {rest : List Char}

theorem run_digits {ds : List Char} (h : IsDigits ds) (hRest : rest.head?.any Char.isDigit = false)
    (offset : Nat) : digits.run ⟨offset, ds ++ rest⟩ = .ok ds ⟨offset + ds.length, rest⟩ :=
  (isClass_satisfy Char.isDigit _).run_many1_append h.ne_nil h.all_digits hRest offset

theorem run_double {whole fraction : List Char} (hWhole : IsDigits whole)
    (hFraction : IsDigits fraction) (hRest : rest.head?.any Char.isDigit = false) (offset : Nat) :
    double.run ⟨offset, (whole ++ '.' :: fraction) ++ rest⟩ =
      .ok (Binary64.ofRat (pointValue whole fraction))
        ⟨offset + (whole ++ '.' :: fraction).length, rest⟩ := by
  have hText : (whole ++ '.' :: fraction) ++ rest = whole ++ '.' :: (fraction ++ rest) := by simp
  have hLength : offset + (whole ++ '.' :: fraction).length =
      offset + whole.length + 1 + fraction.length := by
    simp only [List.length_append, List.length_cons]
    omega
  rw [hText, hLength, double, run_bind_of_ok (run_digits hWhole rfl offset),
    run_bind_of_ok (run_discard_of_ok (run_char _ _ _)), run_bind_of_ok (run_digits hFraction hRest _),
    run_pure, ofDecimal_digits hWhole hFraction]

/-- Digits without a point are no fraction. -/
theorem fails_double {ds : List Char} (h : IsDigits ds) (hRest : rest.head?.any Char.isDigit = false)
    (hPoint : rest.head? ≠ some '.') (offset : Nat) : Fails double ⟨offset, ds ++ rest⟩ := by
  refine fails_bind_of_ok (run_digits h hRest offset) ?_
  exact ((refuses_char hPoint).discard.bind _).fails

theorem run_markedDecimal {ds : List Char} (h : IsDigits ds)
    (hRest : rest.head?.any Char.isDigit = false) (offset : Nat) :
    markedDecimal.run ⟨offset, ('#' :: 'd' :: ds) ++ rest⟩ =
      .ok (Numeral.value 10 ds) ⟨offset + ('#' :: 'd' :: ds).length, rest⟩ := by
  have hLength : offset + ('#' :: 'd' :: ds).length = offset + "#d".toList.length + ds.length :=
    (Nat.add_right_comm offset ds.length 2)
  rw [hLength]
  exact run_markedNumeral "#d" h.ne_nil h.all_digits hRest offset

/-- A part reads to the double for its value, in whichever way it is written. -/
theorem run_complexPart {p : List Char} {q : ℚ} (h : PartText p q)
    (hRest : rest.head?.any Char.isDigit = false) (hPoint : rest.head? ≠ some '.') (offset : Nat) :
    complexPart.run ⟨offset, p ++ rest⟩ = .ok (Binary64.ofRat q) ⟨offset + p.length, rest⟩ := by
  cases h with
  | plain hDigits =>
    refine (run_choice_of_refuses (fails_double hDigits hRest hPoint offset).attempt).mpr ?_
    refine run_choice_of_ok ?_
    rw [run_map, run_decimal hDigits.ne_nil hDigits.all_digits hRest, ← ofNat_digits hDigits]
    rfl
  | marked hDigits =>
    refine (run_choice_of_refuses ((refuses_digits rfl).bind _).fails.attempt).mpr ?_
    refine (run_choice_of_refuses ((refuses_decimal rfl).map _)).mpr (run_choice_of_ok ?_)
    rw [run_map, run_markedDecimal hDigits hRest, ← ofNat_digits hDigits]
    rfl
  | point hWhole hFraction =>
    exact run_choice_of_ok (run_attempt_of_ok (run_double hWhole hFraction hRest offset))

theorem run_complex {p p' : List Char} {q q' : ℚ} (h : PartText p q) (h' : PartText p' q')
    (rest : List Char) (offset : Nat) :
    complex.run ⟨offset, (p ++ '+' :: (p' ++ ['i'])) ++ rest⟩ =
      .ok (.complex (Binary64.ofRat q) (Binary64.ofRat q'))
        ⟨offset + (p ++ '+' :: (p' ++ ['i'])).length, rest⟩ := by
  have hText : (p ++ '+' :: (p' ++ ['i'])) ++ rest = p ++ '+' :: (p' ++ 'i' :: rest) := by simp
  have hLength : offset + (p ++ '+' :: (p' ++ ['i'])).length =
      offset + p.length + 1 + p'.length + 1 := by
    simp only [List.length_append, List.length_cons, List.length_nil]
    omega
  rw [hText, hLength, complex, run_bind_of_ok (run_complexPart h rfl (by simp) offset),
    run_bind_of_ok (run_discard_of_ok (run_char _ _ _)),
    run_bind_of_ok (run_complexPart h' rfl (by simp) _),
    run_bind_of_ok (run_discard_of_ok (run_char _ _ _)), run_pure]

/-! ## Both ways round correctly -/

/-- The ways to write an integer as a part: its digits, the digits behind a mark, and with zeros behind a
point. -/
def integerParts (ds : List Char) (zeros : Nat) : List (List Char) :=
  [ds, '#' :: 'd' :: ds, ds ++ '.' :: List.replicate (zeros + 1) '0']

theorem partText_of_integer {ds p : List Char} {zeros : Nat} (h : IsDigits ds)
    (hp : p ∈ integerParts ds zeros) : PartText p (positional 10 ds) := by
  simp only [integerParts, List.mem_cons, List.not_mem_nil, or_false] at hp
  rcases hp with rfl | rfl | rfl
  · exact .plain h
  · exact .marked h
  · have hZeros : IsDigits (List.replicate (zeros + 1) '0') := by
      refine ⟨by simp, fun d hd => ?_⟩
      rw [List.eq_of_mem_replicate hd]
      rfl
    have hValue : pointValue ds (List.replicate (zeros + 1) '0') = positional 10 ds := by
      rw [pointValue, positional_zeros, Nat.cast_zero, zero_div, add_zero]
    rw [← hValue]
    exact .point h hZeros

/-- There is one correct rounding of numbers that are not negative, with which decimal fractions and both
parts of complex numbers are read. So a part has the same bits in all ways to write its value, among them the
ways to write an integer. -/
theorem doubles_correctly_rounded :
    ∃ round : ℚ → Binary64, (∀ q, 0 ≤ q → Binary64.CorrectlyRounded q (round q)) ∧
      (∀ (whole fraction rest : List Char) (offset : Nat), IsDigits whole → IsDigits fraction →
        rest.head?.any Char.isDigit = false →
        float.run ⟨offset, (whole ++ '.' :: fraction) ++ rest⟩ =
          .ok (.float (round (pointValue whole fraction)))
            ⟨offset + (whole ++ '.' :: fraction).length, rest⟩) ∧
      (∀ (p p' : List Char) (q q' : ℚ) (rest : List Char) (offset : Nat), PartText p q →
        PartText p' q' →
        complex.run ⟨offset, (p ++ '+' :: (p' ++ ['i'])) ++ rest⟩ =
          .ok (.complex (round q) (round q')) ⟨offset + (p ++ '+' :: (p' ++ ['i'])).length, rest⟩) ∧
      ∀ (ds : List Char) (zeros : Nat), IsDigits ds →
        ∀ p ∈ integerParts ds zeros, PartText p (positional 10 ds) := by
  refine ⟨Binary64.ofRat, fun q hq => Binary64.ofRat_correctlyRounded hq, ?_, ?_, ?_⟩
  · intro whole fraction rest offset hWhole hFraction hRest
    rw [float, run_map, run_double hWhole hFraction hRest]
    rfl
  · intro p p' q q' rest offset h h'
    exact run_complex h h' rest offset
  · intro ds zeros h p hp
    exact partText_of_integer h hp

/-- One tenth, which no double has as its value, and twelve in two ways to write it. -/
theorem doubles_correctly_rounded_tenth :
    (∃ x, float.run ⟨0, "0.1".toList⟩ = .ok (.float x) ⟨3, []⟩ ∧
      Binary64.CorrectlyRounded (1 / 10) x) ∧
    ∃ x, complex.run ⟨0, "#d12+12.0i".toList⟩ = .ok (.complex x x) ⟨10, []⟩ ∧
      Binary64.CorrectlyRounded 12 x := by
  have hZero : IsDigits ['0'] := ⟨by simp, Text.forall_mem_of_all (by decide)⟩
  have hOne : IsDigits ['1'] := ⟨by simp, Text.forall_mem_of_all (by decide)⟩
  have hTwelve : IsDigits "12".toList := ⟨by simp, Text.forall_mem_of_all (by decide)⟩
  have hTenth : pointValue ['0'] ['1'] = 1 / 10 := by
    rw [pointValue, show positional 10 ['0'] = 0 from rfl, show positional 10 ['1'] = 1 from rfl]
    norm_num
  have hValue : ((positional 10 "12".toList : ℕ) : ℚ) = 12 := by
    rw [show positional 10 "12".toList = 12 from rfl]
    norm_num
  obtain ⟨round, hRound, hFloat, hComplex, hParts⟩ := doubles_correctly_rounded
  refine ⟨⟨round (1 / 10), ?_, hRound _ (by norm_num)⟩, round 12, ?_, hRound _ (by norm_num)⟩
  · rw [← hTenth]
    exact hFloat ['0'] ['1'] [] 0 hZero hOne rfl
  · rw [← hValue]
    exact hComplex _ _ _ _ [] 0 (hParts _ 0 hTwelve "#d12".toList (by simp [integerParts]))
      (hParts _ 0 hTwelve "12.0".toList (by simp [integerParts]))

end MiniScheme.Grammar
