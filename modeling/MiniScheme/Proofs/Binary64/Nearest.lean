import MiniScheme.Proofs.Binary64.Value
import Mathlib.Data.Nat.Dist

/-!
# The nearest double

The double that is computed for a fraction is correctly rounded (`nearest_correctlyRounded`). Both sides are
measured in units of the least subnormal. Among the multiples of the power of two that leaves 53 bits, the
coefficient is the nearest one, ties to even. A magnitude that is no such multiple lies below the smallest
coefficient of 53 bits, and so does not come as near.

All of this holds for exponents without a bound (`encode_nearest`). Where the bound is exceeded follows: the
first magnitude that is not finite is even, and it is chosen from halfway below it on.
-/

namespace MiniScheme.Binary64

/-! ## Rounding to integers -/

variable {num den : Nat}

theorem roundHalfEven_cases (num den : Nat) :
    (roundHalfEven num den = num / den ∧ 2 * (num % den) ≤ den ∧
      (2 * (num % den) = den → num / den % 2 = 0)) ∨
    (roundHalfEven num den = num / den + 1 ∧ den ≤ 2 * (num % den) ∧
      (2 * (num % den) = den → num / den % 2 = 1)) := by
  unfold roundHalfEven
  simp only
  split
  case isTrue h => exact .inr ⟨rfl, by omega, by omega⟩
  case isFalse h => exact .inl ⟨rfl, by omega, by omega⟩

theorem roundHalfEven_le {k : Nat} (h : num < k * den) : roundHalfEven num den ≤ k := by
  have hFloor := Nat.div_lt_of_lt_mul (Nat.mul_comm k den ▸ h)
  rcases roundHalfEven_cases num den with h | h <;> omega

theorem le_roundHalfEven {k : Nat} (hDen : 0 < den) (h : k * den ≤ num) : k ≤ roundHalfEven num den := by
  have hFloor := (Nat.le_div_iff_mul_le hDen).mpr h
  rcases roundHalfEven_cases num den with h | h <;> omega

/-- A multiple is one of the two around a fraction, or at least one step further away. -/
theorem multiple_cases (k floor den : Nat) :
    k * den + den ≤ floor * den ∨ k = floor ∨ k = floor + 1 ∨ floor * den + 2 * den ≤ k * den := by
  rcases Nat.lt_or_ge k floor with h | h
  · have hMul := Nat.mul_le_mul_right den h
    rw [Nat.succ_mul] at hMul
    exact .inl hMul
  rcases Nat.lt_or_ge (floor + 1) k with h' | h'
  · have hMul := Nat.mul_le_mul_right den h'
    rw [Nat.succ_mul, Nat.succ_mul] at hMul
    exact .inr (.inr (.inr (by omega)))
  · omega

/-- The rounded multiple is nearest among all, and it is even if another one is as near. -/
theorem roundHalfEven_nearest (num : Nat) (hDen : 0 < den) (k : Nat) :
    Nat.dist (roundHalfEven num den * den) num ≤ Nat.dist (k * den) num ∧
      (k ≠ roundHalfEven num den →
        Nat.dist (k * den) num = Nat.dist (roundHalfEven num den * den) num →
        roundHalfEven num den % 2 = 0) := by
  have hDivMod := Nat.div_add_mod' num den
  have hMod := Nat.mod_lt num hDen
  have hMultiple := multiple_cases k (num / den) den
  have hCases := roundHalfEven_cases num den
  generalize roundHalfEven num den = r at *
  generalize num / den = floor at *
  generalize num % den = remainder at *
  have hNext : (floor + 1) * den = floor * den + den := Nat.succ_mul floor den
  unfold Nat.dist
  rcases hCases with ⟨rfl, hLow, hTie⟩ | ⟨rfl, hHigh, hTie⟩
  · rcases hMultiple with h | rfl | rfl | h <;> omega
  · rcases hMultiple with h | rfl | rfl | h <;> omega

/-! ## The magnitude of a fraction -/

/-- The exponent of the power of two that leaves 53 bits. -/
def scale (num den : Nat) : Nat := (num / den).log2 - 52

/-- The magnitude of a fraction that is given in units, with no bound on the exponent. -/
def encode (num den : Nat) : Nat :=
  scale num den * 2 ^ 52 + roundHalfEven num (den * 2 ^ scale num den)

theorem nearest_eq (num den : Nat) :
    nearest num den =
      if encode (num * Nat.pow 2 1074) den < infinityBits then
        ofMagnitude (encode (num * Nat.pow 2 1074) den)
      else infinity :=
  rfl

theorem lt_scaled (hDen : 0 < den) : num < 2 ^ 53 * (den * 2 ^ scale num den) := by
  have hLog : num / den < 2 ^ (scale num den + 53) :=
    Nat.lt_log2_self.trans_le (Nat.pow_le_pow_right (by decide) (by unfold scale; omega))
  have hMul := (Nat.div_lt_iff_lt_mul hDen).mp hLog
  rw [Nat.pow_add] at hMul
  calc num < 2 ^ scale num den * 2 ^ 53 * den := hMul
    _ = 2 ^ 53 * (den * 2 ^ scale num den) := by ring

theorem scaled_le (hDen : 0 < den) (h : scale num den ≠ 0) :
    2 ^ 52 * (den * 2 ^ scale num den) ≤ num := by
  have hLog : (num / den).log2 = scale num den + 52 := by
    unfold scale at h ⊢
    omega
  have hNe : num / den ≠ 0 := by
    rintro hZero
    rw [hZero, Nat.log2_zero] at hLog
    omega
  have hPow := Nat.log2_self_le hNe
  rw [hLog, Nat.pow_add, Nat.le_div_iff_mul_le hDen] at hPow
  calc 2 ^ 52 * (den * 2 ^ scale num den) = 2 ^ scale num den * 2 ^ 52 * den := by ring
    _ ≤ num := hPow

theorem units_encode (hDen : 0 < den) :
    units (encode num den) = roundHalfEven num (den * 2 ^ scale num den) * 2 ^ scale num den := by
  have hScaled : 0 < den * 2 ^ scale num den := Nat.mul_pos hDen (Nat.two_pow_pos _)
  refine units_scaled (roundHalfEven_le (lt_scaled hDen)) ?_
  by_cases h : scale num den = 0
  · exact .inl h
  · exact .inr (le_roundHalfEven hScaled (scaled_le hDen h))

theorem units_grid (m s : Nat) : (∃ k, units m = k * 2 ^ s) ∨ (s ≠ 0 ∧ units m < 2 ^ 52 * 2 ^ s) := by
  obtain ⟨t, k, rfl, hk, ht⟩ := exists_scaled m
  rw [units_scaled hk.le ht]
  rcases Nat.lt_or_ge t s with h | h
  · refine .inr ⟨by omega, ?_⟩
    calc k * 2 ^ t < 2 ^ 53 * 2 ^ t := Nat.mul_lt_mul_of_pos_right hk (Nat.two_pow_pos t)
      _ = 2 ^ 52 * 2 ^ (t + 1) := by ring
      _ ≤ 2 ^ 52 * 2 ^ s := Nat.mul_le_mul_left _ (Nat.pow_le_pow_right (by decide) h)
  · refine .inl ⟨k * 2 ^ (t - s), ?_⟩
    rw [Nat.mul_assoc, ← Nat.pow_add, Nat.sub_add_cancel h]

/-- No magnitude is nearer to the fraction, and one that is as near leaves the chosen one even. -/
theorem encode_nearest (num : Nat) (hDen : 0 < den) (m : Nat) :
    Nat.dist (units (encode num den) * den) num ≤ Nat.dist (units m * den) num ∧
      (units m ≠ units (encode num den) →
        Nat.dist (units m * den) num = Nat.dist (units (encode num den) * den) num →
        encode num den % 2 = 0) := by
  have hScaled : 0 < den * 2 ^ scale num den := Nat.mul_pos hDen (Nat.two_pow_pos _)
  have hParity : encode num den % 2 = roundHalfEven num (den * 2 ^ scale num den) % 2 := by
    unfold encode
    omega
  rw [units_encode hDen, hParity, Nat.mul_assoc, Nat.mul_comm (2 ^ scale num den)]
  rcases units_grid m (scale num den) with ⟨k, hk⟩ | ⟨hScale, hLow⟩
  · rw [hk, Nat.mul_assoc, Nat.mul_comm (2 ^ scale num den)]
    obtain ⟨hNearest, hEven⟩ := roundHalfEven_nearest num hScaled k
    refine ⟨hNearest, fun hNe hTie => hEven ?_ hTie⟩
    rintro rfl
    exact hNe rfl
  · -- The smallest coefficient of 53 bits lies between this magnitude and the fraction.
    have hBelow := scaled_le hDen hScale
    have hFar : units m * den < 2 ^ 52 * (den * 2 ^ scale num den) := by
      calc units m * den < 2 ^ 52 * 2 ^ scale num den * den := Nat.mul_lt_mul_of_pos_right hLow hDen
        _ = 2 ^ 52 * (den * 2 ^ scale num den) := by ring
    have hNearest := (roundHalfEven_nearest num hScaled (2 ^ 52)).1
    unfold Nat.dist at hNearest ⊢
    omega

/-! ## Overflow -/

theorem units_infinityBits : units infinityBits = 2 ^ 54 * 2 ^ 2044 := by
  have hBits : infinityBits = (2044 + 2) * 2 ^ 52 + 2 ^ 52 := rfl
  rw [hBits, units_scaled (by omega) (by omega), pow_add]
  generalize 2 ^ 2044 = step
  omega

theorem units_largest : units (infinityBits - 1) = (2 ^ 54 - 2) * 2 ^ 2044 := by
  have hBits : infinityBits - 1 = (2044 + 1) * 2 ^ 52 + (2 ^ 53 - 1) := rfl
  rw [hBits, units_scaled (by omega) (by omega), pow_add]
  generalize 2 ^ 2044 = step
  omega

/-- A fraction is too large from halfway between the largest finite magnitude and the next one on. -/
theorem infinityBits_le_encode_iff (hDen : 0 < den) :
    infinityBits ≤ encode num den ↔ (2 ^ 54 - 1) * (2 ^ 2044 * den) ≤ num := by
  have hTop : units infinityBits * den = 2 ^ 54 * (2 ^ 2044 * den) := by
    rw [units_infinityBits, Nat.mul_assoc]
  have hMax : units (infinityBits - 1) * den = (2 ^ 54 - 2) * (2 ^ 2044 * den) := by
    rw [units_largest, Nat.mul_assoc]
  obtain ⟨hNearTop, hEven⟩ := encode_nearest num hDen infinityBits
  obtain ⟨hNearMax, -⟩ := encode_nearest num hDen (infinityBits - 1)
  generalize encode num den = m at *
  generalize 2 ^ 2044 * den = step at *
  rw [hTop] at hNearTop hEven
  rw [hMax] at hNearMax
  unfold Nat.dist at *
  constructor
  · intro h
    have hUnits := Nat.mul_le_mul_right den (units_strictMono.monotone h)
    omega
  · intro h
    by_contra hLt
    rcases Nat.lt_or_ge m (infinityBits - 1) with hLess | hGe
    · have hUnits := Nat.mul_lt_mul_of_pos_right (units_strictMono hLess) hDen
      omega
    · -- The largest finite magnitude is odd, so it is not chosen halfway.
      obtain rfl : m = infinityBits - 1 := by omega
      have hNe := units_strictMono (show infinityBits - 1 < infinityBits by decide)
      have hOdd := hEven hNe.ne' (by omega)
      exact absurd hOdd (by decide)

/-! ## Fractions as rational numbers -/

/-- The bound in units, of which `2 ^ k` make one, and the same bound as a rational number. -/
theorem halfway_iff (num : Nat) (hDen : 0 < den) {i k s : Nat} (hs : i + k = s) :
    (2 ^ 54 - 1) * (2 ^ s * den) ≤ num * Nat.pow 2 k ↔ (2 : ℚ) ^ (i + 54) - 2 ^ i ≤ num / den := by
  have hDenRat : (0 : ℚ) < den := by exact_mod_cast hDen
  have hSplit : (2 ^ 54 - 1) * (2 ^ s * den) = (2 ^ 54 - 1) * 2 ^ i * den * 2 ^ k := by
    rw [← hs, pow_add]
    ring
  have hBound : (2 : ℚ) ^ (i + 54) - 2 ^ i = ((2 ^ 54 - 1) * 2 ^ i : ℕ) := by
    rw [pow_add]
    push_cast
    ring
  rw [Nat.pow_eq, hSplit, Nat.mul_le_mul_right_iff (Nat.two_pow_pos k), hBound, le_div_iff₀ hDenRat]
  exact_mod_cast Iff.rfl

theorem abs_sub_eq_dist (m n : Nat) : |(m : ℚ) - n| = Nat.dist m n := by
  rcases Nat.le_total m n with h | h
  · rw [Nat.dist_eq_sub_of_le h, Nat.cast_sub h, abs_sub_comm, abs_of_nonneg (by simpa using h)]
  · rw [Nat.dist_eq_sub_of_le_right h, Nat.cast_sub h, abs_of_nonneg (by simpa using h)]

theorem abs_units_sub (u num : Nat) (hDen : 0 < den) (k : Nat) :
    |(u : ℚ) / 2 ^ k - num / den| = Nat.dist (u * den) (num * Nat.pow 2 k) / (2 ^ k * den) := by
  have hDenRat : (den : ℚ) ≠ 0 := by exact_mod_cast hDen.ne'
  have hPos : (0 : ℚ) < 2 ^ k * den := by positivity
  have hSub : (u : ℚ) / 2 ^ k - num / den = ((u * den : ℕ) - (num * 2 ^ k : ℕ)) / (2 ^ k * den) := by
    push_cast
    field_simp
  rw [hSub, abs_div, abs_of_pos hPos, abs_sub_eq_dist]
  rfl

/-! ## Correct rounding -/

section Signs

variable {v q : ℚ} (hv : 0 ≤ v) (hq : 0 ≤ q)
include hv hq

theorem abs_sub_le_abs_neg_sub : |v - q| ≤ |-v - q| := by
  rw [abs_of_nonpos (by linarith : -v - q ≤ 0), abs_le]
  constructor <;> linarith

theorem eq_zero_of_abs_neg_sub_eq (h : |-v - q| = |v - q|) : v = 0 ∨ q = 0 := by
  rw [abs_of_nonpos (by linarith : -v - q ≤ 0)] at h
  rcases abs_choice (v - q) with h' | h'
  · exact .inr (by linarith)
  · exact .inl (by linarith)

end Signs

/-- For a number that is not negative, doubles with a sign need not be looked at. -/
theorem nearestEven_of_units {q : ℚ} (hq : 0 ≤ q) {m : Nat} (hFinite : m < infinityBits)
    (hNearest : ∀ n, |(units m : ℚ) / 2 ^ 1074 - q| ≤ |(units n : ℚ) / 2 ^ 1074 - q|)
    (hEven : ∀ n, units n ≠ units m →
      |(units n : ℚ) / 2 ^ 1074 - q| = |(units m : ℚ) / 2 ^ 1074 - q| → m % 2 = 0) :
    NearestEven q (ofMagnitude m) := by
  have hLt : m < 2 ^ 63 := hFinite.trans (by decide)
  have hSign := sign_ofMagnitude hLt
  have hMagnitude := magnitude_ofMagnitude hLt
  have hValue : (ofMagnitude m).value = units m / 2 ^ 1074 := by
    rw [value_of_unsigned hSign, hMagnitude]
  have hFraction : (ofMagnitude m).fraction % 2 = m % 2 := by
    rw [fraction_eq, hMagnitude]
    omega
  have hUnits : ∀ n, (0 : ℚ) ≤ units n / 2 ^ 1074 := fun n => by positivity
  refine ⟨hSign, (isFinite_iff _).mpr (by rwa [hMagnitude]), fun y _ => ?_, fun y _ => ?_⟩
  · rw [hValue]
    rcases y.value_cases with h | h
    · rw [h]
      exact hNearest _
    · rw [h]
      exact (hNearest _).trans (abs_sub_le_abs_neg_sub (hUnits _) hq)
  · rw [hValue, hFraction]
    intro hNe hTie
    rcases y.value_cases with h | h
    · rw [h] at hNe hTie
      refine hEven y.magnitude (fun hEq => hNe ?_) hTie
      rw [hEq]
    · rw [h] at hNe hTie
      by_cases hEq : units y.magnitude = units m
      · -- A double and its negative are equally near to zero only, and there both are zero.
        rw [hEq] at hNe hTie
        have hZero : (units m : ℚ) / 2 ^ 1074 = 0 := by
          rcases eq_zero_of_abs_neg_sub_eq (hUnits m) hq hTie with hv | rfl
          · exact hv
          · simpa [show units 0 = 0 from rfl] using hNearest 0
        exact absurd (by rw [hZero, neg_zero]) hNe
      · refine hEven y.magnitude hEq (le_antisymm ?_ (hNearest _))
        rw [← hTie]
        exact abs_sub_le_abs_neg_sub (hUnits _) hq

theorem nearest_correctlyRounded (num : Nat) (hDen : 0 < den) :
    CorrectlyRounded (num / den) (nearest num den) := by
  rw [nearest_eq]
  -- With a variable exponent the powers of two are never evaluated.
  obtain ⟨k, hk⟩ : ∃ k, k = 1074 := ⟨_, rfl⟩
  rw [← hk]
  have hBound : infinityBits ≤ encode (num * Nat.pow 2 k) den ↔
      (2 : ℚ) ^ 1024 - 2 ^ 970 ≤ num / den :=
    (infinityBits_le_encode_iff hDen).trans (halfway_iff num hDen (show 970 + k = 2044 by omega))
  have hEncode := encode_nearest (num * Nat.pow 2 k) hDen
  generalize encode (num * Nat.pow 2 k) den = m at *
  constructor
  · rw [← hBound]
    split
    case isTrue hFinite =>
      refine ⟨fun h => ?_, fun h => absurd hFinite (by omega)⟩
      have hMagnitude := congrArg magnitude h
      rw [magnitude_ofMagnitude (hFinite.trans (by decide))] at hMagnitude
      rw [hMagnitude]
      decide
    case isFalse hInfinite => simpa using hInfinite
  · intro hLt
    rw [← not_le, ← hBound, not_le] at hLt
    rw [if_pos hLt]
    refine nearestEven_of_units (by positivity) hLt (fun n => ?_) fun n hNe hTie => ?_
    · rw [← hk, abs_units_sub _ num hDen, abs_units_sub _ num hDen]
      have hDist : (Nat.dist (units m * den) (num * Nat.pow 2 k) : ℚ) ≤
          Nat.dist (units n * den) (num * Nat.pow 2 k) := by
        exact_mod_cast (hEncode n).1
      gcongr
    · have hPos : (0 : ℚ) < 2 ^ k * den := by positivity
      rw [← hk, abs_units_sub _ num hDen, abs_units_sub _ num hDen, div_left_inj' hPos.ne'] at hTie
      exact (hEncode n).2 hNe (by exact_mod_cast hTie)

/-- The double for a rational number that is not negative. -/
def ofRat (q : ℚ) : Binary64 := nearest q.num.natAbs q.den

theorem ofRat_correctlyRounded {q : ℚ} (hq : 0 ≤ q) : CorrectlyRounded q (ofRat q) := by
  have hNum : ((q.num.natAbs : ℕ) : ℚ) = q.num := by
    rw [Nat.cast_natAbs, abs_of_nonneg (Rat.num_nonneg.mpr hq)]
  have hRounded := nearest_correctlyRounded q.num.natAbs q.den_pos
  rwa [hNum, Rat.num_div_den] at hRounded

/-- Only the value of a fraction counts, not how it is written. -/
theorem nearest_eq_ofRat (num : Nat) (hDen : 0 < den) : nearest num den = ofRat (num / den) :=
  (nearest_correctlyRounded num hDen).unique (ofRat_correctlyRounded (by positivity))

end MiniScheme.Binary64
