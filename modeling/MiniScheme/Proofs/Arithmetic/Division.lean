import Mathlib.Algebra.BigOperators.Ring.List
import Mathlib.Data.Int.DivMod
import Mathlib.Data.Rat.Floor
import MiniScheme.Proofs.Arithmetic.Application

/-!
# The two divisions

A division of integers gives a quotient and a remainder that is smaller than the divisor. There are two
remainders to choose from if the division is not exact, and the sign decides which one it is: that of the
dividend for the quotient cut off toward zero, that of the divisor for the quotient rounded down
(`IsDivision`). With the sign fixed the two numbers are determined (`IsDivision.unique`), so one division is
found from the other by moving a remainder with the wrong sign by the divisor (`IsDivision.toFloor`).

Operators divide by one argument after the other. Quotients cut off toward zero may be taken at once, by the
product of the divisors; quotients rounded down may if the divisors after the first are positive.
-/

namespace MiniScheme

namespace Integer

/-! ## Quotient and remainder -/

/-- The dividend `a` is the divisor `b` taken `q` times and a remainder `r`, which is smaller than the divisor
and has the sign of `s`, unless it is zero. -/
structure IsDivision (s a b q r : Int) : Prop where
  dividend : a = b * q + r
  small : |r| < |b|
  sign : r = 0 ∨ r.sign = s.sign

theorem sign_eq_sign_iff {r s : Int} :
    r.sign = s.sign ↔ (0 < r ↔ 0 < s) ∧ (r < 0 ↔ s < 0) := by
  rw [← Int.sign_eq_one_iff_pos, ← Int.sign_eq_one_iff_pos, ← Int.sign_eq_neg_one_iff_neg,
    ← Int.sign_eq_neg_one_iff_neg]
  rcases r.sign_trichotomy with h | h | h
  all_goals rcases s.sign_trichotomy with h' | h' | h' <;> simp [h, h']

theorem abs_lt_abs_iff {r b : Int} : |r| < |b| ↔ r.natAbs < b.natAbs := by
  rw [Int.abs_eq_natAbs, Int.abs_eq_natAbs, Int.ofNat_lt]

theorem IsDivision.divisor_ne_zero {s a b q r : Int} (h : IsDivision s a b q r) : b ≠ 0 := by
  have hSmall := abs_lt_abs_iff.mp h.small
  omega

/-- Two remainders of one sign differ by less than the divisor, so they do not differ. -/
theorem IsDivision.unique {s a b q r q' r' : Int} (h : IsDivision s a b q r)
    (h' : IsDivision s a b q' r') : q = q' ∧ r = r' := by
  have hDiff : r - r' = b * (q' - q) := by
    have hSame := h.dividend.symm.trans h'.dividend
    rw [mul_sub]
    omega
  have hSmall : (r - r').natAbs < b.natAbs := by
    have hr := abs_lt_abs_iff.mp h.small
    have hr' := abs_lt_abs_iff.mp h'.small
    have hSign := h.sign
    have hSign' := h'.sign
    rw [sign_eq_sign_iff] at hSign hSign'
    omega
  have hr : r - r' = 0 := Int.eq_zero_of_dvd_of_natAbs_lt_natAbs ⟨q' - q, hDiff⟩ hSmall
  rw [hr] at hDiff
  have hq : q' - q = 0 := (mul_eq_zero.mp hDiff.symm).resolve_left h.divisor_ne_zero
  omega

theorem isDivision_trunc (a : Int) {b : Int} (hb : b ≠ 0) :
    IsDivision a a b (a.tdiv b) (a.tmod b) where
  dividend := (Int.mul_tdiv_add_tmod a b).symm
  small := by
    rw [abs_lt_abs_iff, Int.natAbs_tmod]
    exact Nat.mod_lt _ (Int.natAbs_pos.mpr hb)
  sign := by
    by_cases hExact : b ∣ a
    · exact .inl (Int.tmod_eq_zero_of_dvd hExact)
    · rw [Int.sign_tmod, if_neg hExact]
      exact .inr rfl

theorem isDivision_floor (a : Int) {b : Int} (hb : b ≠ 0) :
    IsDivision b a b (a.fdiv b) (a.fmod b) := by
  have hSide : 0 < b ∧ 0 ≤ a.fmod b ∧ a.fmod b < b ∨ b < 0 ∧ a.fmod b ≤ 0 ∧ b < a.fmod b := by
    rcases lt_or_gt_of_ne hb with hNeg | hPos
    · have hLow := Int.fmod_nonneg_of_pos (-a) (neg_pos.mpr hNeg)
      have hHigh := Int.fmod_lt_of_pos (-a) (neg_pos.mpr hNeg)
      rw [Int.neg_fmod_neg] at hLow hHigh
      omega
    · exact .inl ⟨hPos, Int.fmod_nonneg_of_pos a hPos, Int.fmod_lt_of_pos a hPos⟩
  refine ⟨(Int.mul_fdiv_add_fmod a b).symm, ?_, ?_⟩
  · rw [abs_lt_abs_iff]
    omega
  · rw [sign_eq_sign_iff]
    omega

/-- A remainder with the sign of the divisor is left over if the fraction is rounded down. -/
theorem IsDivision.floor_eq {a b q r : Int} (h : IsDivision b a b q r) : ⌊(a : ℚ) / b⌋ = q := by
  have hb : (b : ℚ) ≠ 0 := Int.cast_ne_zero.mpr h.divisor_ne_zero
  have hSplit : (a : ℚ) / b = q + r / b := by
    rw [h.dividend, Int.cast_add, Int.cast_mul, add_div, mul_div_cancel_left₀ _ hb]
  have hSide : 0 ≤ r ∧ 0 ≤ b ∨ r ≤ 0 ∧ b ≤ 0 := by
    have hSign := h.sign
    rw [sign_eq_sign_iff] at hSign
    omega
  have hNonneg : 0 ≤ (r : ℚ) / b := by
    rw [div_nonneg_iff]
    exact_mod_cast hSide
  have hLt : (r : ℚ) / b < 1 := by
    apply (le_abs_self _).trans_lt
    rw [abs_div, div_lt_one (abs_pos.mpr hb)]
    exact_mod_cast h.small
  rw [hSplit, Int.floor_intCast_add, Int.floor_eq_zero_iff.mpr ⟨hNonneg, hLt⟩, add_zero]

/-- A remainder with the sign of the dividend becomes one with the sign of the divisor. -/
theorem IsDivision.toFloor {a b q r : Int} (h : IsDivision a a b q r) :
    IsDivision b a b (if r ≠ 0 ∧ a.sign = -b.sign then q - 1 else q)
      (if r ≠ 0 ∧ a.sign = -b.sign then r + b else r) := by
  have hSmall := abs_lt_abs_iff.mp h.small
  have hSign := h.sign
  rw [sign_eq_sign_iff] at hSign
  have hOpposite : a.sign = -b.sign ↔ (0 < a ↔ 0 < -b) ∧ (a < 0 ↔ -b < 0) := by
    rw [← Int.sign_neg, sign_eq_sign_iff]
  by_cases hMove : r ≠ 0 ∧ a.sign = -b.sign
  · rw [if_pos hMove, if_pos hMove]
    rw [hOpposite] at hMove
    refine ⟨?_, ?_, .inr ?_⟩
    · have hDividend := h.dividend
      rw [mul_sub]
      omega
    · rw [abs_lt_abs_iff]
      omega
    · rw [sign_eq_sign_iff]
      omega
  · rw [if_neg hMove, if_neg hMove]
    rw [hOpposite] at hMove
    refine ⟨h.dividend, h.small, ?_⟩
    rw [sign_eq_sign_iff]
    omega

/-! ## One divisor after the other -/

theorem tdiv_tdiv (a b c : Int) : (a.tdiv b).tdiv c = a.tdiv (b * c) := by
  have hNat : ∀ k m n : Nat, ((k : Int).tdiv m).tdiv n = (k : Int).tdiv (m * n) := by
    intro k m n
    rw [← Int.natCast_mul, ← Int.ofNat_tdiv, ← Int.ofNat_tdiv, ← Int.ofNat_tdiv,
      Nat.div_div_eq_div_mul]
  -- Signs go to the front of the quotient on both sides.
  obtain ⟨k, rfl | rfl⟩ := a.eq_nat_or_neg
  all_goals obtain ⟨m, rfl | rfl⟩ := b.eq_nat_or_neg
  all_goals obtain ⟨n, rfl | rfl⟩ := c.eq_nat_or_neg
  all_goals simp only [Int.neg_tdiv, Int.tdiv_neg, neg_mul, mul_neg, neg_neg, hNat]

theorem fdiv_fdiv (a b : Int) {c : Int} (hc : 0 ≤ c) : (a.fdiv b).fdiv c = a.fdiv (b * c) := by
  rcases le_total 0 b with hb | hb
  · exact Int.fdiv_fdiv_eq_fdiv_mul a hb hc
  · rw [← Int.neg_fdiv_neg a b, Int.fdiv_fdiv_eq_fdiv_mul (-a) (neg_nonneg.mpr hb) hc, neg_mul,
      Int.neg_fdiv_neg]

theorem foldl_tdiv (a : Int) (bs : List Int) : bs.foldl Int.tdiv a = a.tdiv bs.prod := by
  induction bs generalizing a with
  | nil => simp
  | cons b bs ih => rw [List.foldl_cons, ih, tdiv_tdiv, List.prod_cons]

theorem foldl_fdiv (a b : Int) {bs : List Int} (h : ∀ c ∈ bs, 0 < c) :
    bs.foldl Int.fdiv (a.fdiv b) = a.fdiv (b * bs.prod) := by
  induction bs generalizing b with
  | nil => simp
  | cons c bs ih =>
    obtain ⟨hc, hbs⟩ := List.forall_mem_cons.mp h
    rw [List.foldl_cons, fdiv_fdiv a b hc.le, ih (b * c) hbs, List.prod_cons, mul_assoc]

/-- What remainders of a number are: not larger, and of the same sign unless they are zero. -/
structure Shrinks (a r : Int) : Prop where
  le : |r| ≤ |a|
  sign : r = 0 ∨ r.sign = a.sign

theorem Shrinks.trans {a r t : Int} (h : Shrinks a r) (h' : Shrinks r t) : Shrinks a t where
  le := h'.le.trans h.le
  sign := by
    rcases h'.sign with ht | ht
    · exact .inl ht
    · rcases h.sign with hr | hr
      · rw [hr, Int.sign_zero] at ht
        exact .inl (Int.sign_eq_zero_iff_zero.mp ht)
      · exact .inr (ht.trans hr)

theorem shrinks_tmod (a : Int) {b : Int} (hb : b ≠ 0) : Shrinks a (a.tmod b) where
  le := by
    rw [Int.abs_eq_natAbs, Int.abs_eq_natAbs, Int.natAbs_tmod, Int.ofNat_le]
    exact Nat.mod_le _ _
  sign := (isDivision_trunc a hb).sign

theorem foldl_tmod_shrinks (a : Int) {bs : List Int} (h : ∀ b ∈ bs, b ≠ 0) :
    Shrinks a (bs.foldl Int.tmod a) := by
  induction bs generalizing a with
  | nil => exact ⟨le_refl _, .inr rfl⟩
  | cons b bs ih =>
    obtain ⟨hb, hbs⟩ := List.forall_mem_cons.mp h
    exact (shrinks_tmod a hb).trans (ih (a.tmod b) hbs)

/-- The remainder is below each divisor from the step on where that one was used. -/
theorem foldl_tmod_small (a : Int) {bs : List Int} (h : ∀ b ∈ bs, b ≠ 0) :
    ∀ b ∈ bs, |bs.foldl Int.tmod a| < |b| := by
  induction bs generalizing a with
  | nil => nofun
  | cons b bs ih =>
    obtain ⟨hb, hbs⟩ := List.forall_mem_cons.mp h
    rw [List.forall_mem_cons]
    exact ⟨(foldl_tmod_shrinks (a.tmod b) hbs).le.trans_lt (isDivision_trunc a hb).small,
      ih (a.tmod b) hbs⟩

/-- The last divisor alone decides on size and sign of the last remainder. -/
theorem foldl_fmod_last (a : Int) {bs : List Int} (hne : bs ≠ []) (h : ∀ b ∈ bs, b ≠ 0) :
    |bs.foldl Int.fmod a| < |bs.getLast hne| ∧
      (bs.foldl Int.fmod a = 0 ∨ (bs.foldl Int.fmod a).sign = (bs.getLast hne).sign) := by
  have hFold : bs.foldl Int.fmod a = (bs.dropLast.foldl Int.fmod a).fmod (bs.getLast hne) := by
    conv_lhs => rw [← List.dropLast_append_getLast hne, List.foldl_append]
    rfl
  have hDivision := isDivision_floor (bs.dropLast.foldl Int.fmod a) (h _ (List.getLast_mem hne))
  rw [hFold]
  exact ⟨hDivision.small, hDivision.sign⟩

end Integer

open Integer

/-! ## Operators that divide -/

theorem result_integers (levels : Nat) (op : Operator) (a : Int) {bs : List Int} (h : ∀ b ∈ bs, b ≠ 0) :
    (applyWithin levels op.name ((a :: bs).map Datum.number)).result = .ok (.number (bs.foldl op.meaning a)) := by
  have hArgs : (a :: bs).map Datum.number ≠ [] := List.cons_ne_nil _ _
  have hNot : ¬ MeetsZeroDivisor op.name ((a :: bs).map Datum.number) := by
    rintro ⟨-, arg, hArg, hZero⟩
    obtain ⟨b, hb, rfl⟩ := List.mem_map.mp hArg
    exact h b hb hZero
  have hIntegers : ((a :: bs).map Datum.number).map Datum.toInteger = a :: bs := by
    rw [List.map_map]
    exact List.map_id _
  have hWithin : ∀ arg ∈ (a :: bs).map Datum.number, arg.wraps ≤ levels := by
    simp [Datum.wraps]
  rw [result_applyWithin_of_reached op hArgs hWithin, if_neg hNot, hIntegers, Operator.total]

theorem result_pair (levels : Nat) (op : Operator) (a : Int) {b : Int} (hb : b ≠ 0) :
    (applyWithin levels op.name [.number a, .number b]).result = .ok (.number (op.meaning a b)) := by
  have hNonzero : ∀ d ∈ [b], d ≠ 0 := by simpa using hb
  exact result_integers levels op a hNonzero

theorem quotient_of_perm (levels : Nat) (a : Int) {bs ds : List Int} (h : ∀ b ∈ bs, b ≠ 0) (hPerm : ds.Perm bs) :
    applyWithin levels "quotient" ((a :: ds).map Datum.number) =
      applyWithin levels "quotient" ((a :: bs).map Datum.number) := by
  have hds : ∀ d ∈ ds, d ≠ 0 := fun d hd => h d (hPerm.mem_iff.mp hd)
  have hFold : ds.foldl Int.tdiv a = bs.foldl Int.tdiv a := by
    rw [foldl_tdiv, foldl_tdiv, hPerm.prod_eq]
  apply applyWithin_eq_of_result_eq .quotient
  · simp [hPerm.length_eq]
  · rw [result_integers levels .quotient a hds, result_integers levels .quotient a h]
    exact congrArg (fun q => Except.ok (Datum.number q)) hFold

/-- Division by one integer after the other. Cut off toward zero, the quotient is that by the product of the
divisors, in whatever order they come. Rounded down it is, if the divisors after the first are positive. The
remainder of the one is smaller than all divisors and has the sign of the dividend; the remainder of the other
is smaller than the last divisor and has its sign. -/
theorem chained_division (levels : Nat) (a b : Int) (bs : List Int) (h : ∀ d ∈ b :: bs, d ≠ 0) :
    (∃ q, Integer.quotient a (b :: bs).prod = .ok q ∧
      (applyWithin levels "quotient" ((a :: b :: bs).map Datum.number)).result = .ok (.number q)) ∧
    (∀ ds, ds.Perm (b :: bs) →
      applyWithin levels "quotient" ((a :: ds).map Datum.number) =
        applyWithin levels "quotient" ((a :: b :: bs).map Datum.number)) ∧
    ((∀ d ∈ bs, 0 < d) → (applyWithin levels "/" ((a :: b :: bs).map Datum.number)).result =
      .ok (.number ⌊(a : ℚ) / ((b :: bs).prod : Int)⌋)) ∧
    (∃ r, (applyWithin levels "remainder" ((a :: b :: bs).map Datum.number)).result = .ok (.number r) ∧
      (∀ d ∈ b :: bs, |r| < |d|) ∧ (r = 0 ∨ r.sign = a.sign)) ∧
    ∃ m, (applyWithin levels "mod" ((a :: b :: bs).map Datum.number)).result = .ok (.number m) ∧
      |m| < |(b :: bs).getLast (List.cons_ne_nil b bs)| ∧
      (m = 0 ∨ m.sign = ((b :: bs).getLast (List.cons_ne_nil b bs)).sign) := by
  have hProd : (b :: bs).prod ≠ 0 := List.prod_ne_zero fun hZero => h 0 hZero rfl
  refine ⟨?_, ?_, ?_, ?_, ?_⟩
  · refine ⟨a.tdiv (b :: bs).prod, ?_, ?_⟩
    · rw [quotient_eq, if_neg hProd]
    · rw [← foldl_tdiv]
      exact result_integers levels .quotient a h
  · intro ds hPerm
    exact quotient_of_perm levels a h hPerm
  · intro hPos
    have hFold : (b :: bs).foldl Int.fdiv a = a.fdiv (b :: bs).prod := by
      rw [List.foldl_cons, foldl_fdiv a b hPos, List.prod_cons]
    rw [(isDivision_floor a hProd).floor_eq, ← hFold]
    exact result_integers levels .divide a h
  · exact ⟨_, result_integers levels .remainder a h, foldl_tmod_small a h, (foldl_tmod_shrinks a h).sign⟩
  · exact ⟨_, result_integers levels .modulo a h, foldl_fmod_last a (List.cons_ne_nil b bs) h⟩

/-- The first divisor may be negative, the others may not where the fraction is rounded down. -/
theorem chained_division_negative :
    let divisors : List Int := [-7, 3, 2]
    (∀ d ∈ divisors, d ≠ 0) ∧
    (applyWithin 0 "/" ((-100 :: divisors).map Datum.number)).result =
      .ok (.number ⌊((-100 : Int) : ℚ) / (divisors.prod : Int)⌋) ∧
    applyWithin 0 "quotient" ([-100, 2, -7, 3].map Datum.number) =
      applyWithin 0 "quotient" ((-100 :: divisors).map Datum.number) := by
  intro divisors
  have hNonzero : ∀ d ∈ divisors, d ≠ 0 := by decide
  obtain ⟨-, hOrder, hFloor, -, -⟩ := chained_division 0 (-100) (-7) [3, 2] hNonzero
  exact ⟨hNonzero, hFloor (by decide), hOrder [2, -7, 3] (by decide)⟩

theorem result_zeroDivisor (levels : Nat) (a : Int) {name : String}
    (h : name ∈ ["/", "mod", "quotient", "remainder"]) :
    (applyWithin levels name [.number a, .number 0]).result = .error (.divisionByZero name) := by
  obtain ⟨op, rfl⟩ := Operator.exists_name (List.mem_append_right ["+", "-", "*"] h)
  rw [result_applyWithin_of_reached op (List.cons_ne_nil _ _) (by simp [Datum.wraps])]
  exact if_pos ⟨h, .number 0, by simp, rfl⟩

/-- The quotient cut off toward zero and its remainder are the only division whose remainder has the sign of
the dividend. The quotient rounded down and its remainder are found from them, by moving a remainder of the
wrong sign, and are a division whose remainder has the sign of the divisor. Nothing is divided by zero. -/
theorem two_divisions (levels : Nat) (a b : Int) :
    (b ≠ 0 → ∃ q r, Integer.quotient a b = .ok q ∧ Integer.remainder a b = .ok r ∧
      (∀ q' r', IsDivision a a b q' r' ↔ q' = q ∧ r' = r) ∧
      (applyWithin levels "/" [.number a, .number b]).result =
        .ok (.number (if r ≠ 0 ∧ a.sign = -b.sign then q - 1 else q)) ∧
      (applyWithin levels "mod" [.number a, .number b]).result =
        .ok (.number (if r ≠ 0 ∧ a.sign = -b.sign then r + b else r)) ∧
      ∃ d m, (applyWithin levels "/" [.number a, .number b]).result = .ok (.number d) ∧
        (applyWithin levels "mod" [.number a, .number b]).result = .ok (.number m) ∧ IsDivision b a b d m) ∧
    (b = 0 → Integer.quotient a b = .error .zeroDivisor ∧ Integer.remainder a b = .error .zeroDivisor ∧
      Integer.floorQuotient a b = .error .zeroDivisor ∧ Integer.modulo a b = .error .zeroDivisor ∧
      ∀ name ∈ ["/", "mod", "quotient", "remainder"],
        (applyWithin levels name [.number a, .number b]).result = .error (.divisionByZero name)) := by
  constructor
  · intro hb
    have hTrunc := isDivision_trunc a hb
    have hFloor := isDivision_floor a hb
    obtain ⟨hQuotient, hRemainder⟩ := hTrunc.toFloor.unique hFloor
    have hDivide : (applyWithin levels "/" [.number a, .number b]).result = .ok (.number (a.fdiv b)) :=
      result_pair levels .divide a hb
    have hModulo : (applyWithin levels "mod" [.number a, .number b]).result = .ok (.number (a.fmod b)) :=
      result_pair levels .modulo a hb
    refine ⟨a.tdiv b, a.tmod b, ?_, ?_, ?_, ?_, ?_, a.fdiv b, a.fmod b, hDivide, hModulo, hFloor⟩
    · rw [quotient_eq, if_neg hb]
    · rw [remainder_eq, if_neg hb]
    · intro q' r'
      constructor
      · intro h
        exact h.unique hTrunc
      · rintro ⟨rfl, rfl⟩
        exact hTrunc
    · rw [hQuotient, hDivide]
    · rw [hRemainder, hModulo]
  · rintro rfl
    exact ⟨rfl, rfl, rfl, rfl, fun name hName => result_zeroDivisor levels a hName⟩

/-- Minus seven is between two multiples of two, so the remainder is negative for the one division and positive
for the other. -/
theorem two_divisions_negative :
    (2 : Int) ≠ 0 ∧ Integer.quotient (-7) 2 = .ok (-3) ∧ Integer.remainder (-7) 2 = .ok (-1) ∧
    (applyWithin 0 "/" [.number (-7), .number 2]).result = .ok (.number (-3 - 1)) ∧
    (applyWithin 0 "mod" [.number (-7), .number 2]).result = .ok (.number (-1 + 2)) := by
  obtain ⟨q, r, hQuotient, hRemainder, -, hDivide, hModulo, -⟩ := (two_divisions 0 (-7) 2).1 (by decide)
  cases hQuotient
  cases hRemainder
  exact ⟨by decide, rfl, rfl, hDivide, hModulo⟩

end MiniScheme
