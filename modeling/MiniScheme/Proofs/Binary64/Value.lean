import MiniScheme.Binary64
import Mathlib.Algebra.Order.Field.Rat
import Mathlib.Algebra.Order.Ring.Abs
import Mathlib.Tactic.FieldSimp
import Mathlib.Tactic.Linarith
import Mathlib.Tactic.NormNum
import Mathlib.Tactic.Positivity
import Mathlib.Tactic.Ring

/-!
# The value of a double

A double has a sign bit, eleven bits of exponent and 52 bits of fraction. From them it gets its value as the
standard says, and correct rounding is stated with those values (`CorrectlyRounded`).

The bits below the sign are a number, the magnitude. In units of 2^-1074 the value grows with the magnitude,
also across the exponents (`units_strictMono`). So two neighbouring doubles differ in the last bit, and the
rule for ties leaves one double only (`CorrectlyRounded.unique`).
-/

namespace MiniScheme.Binary64

/-! ## Fields and value -/

/-- The sign bit. -/
def sign (x : Binary64) : Nat := x.bits.toNat / 2 ^ 63

/-- The field of the exponent. -/
def exponent (x : Binary64) : Nat := x.bits.toNat / 2 ^ 52 % 2 ^ 11

/-- The field of the fraction. -/
def fraction (x : Binary64) : Nat := x.bits.toNat % 2 ^ 52

/-- A double is finite unless all bits of its exponent are set. -/
def IsFinite (x : Binary64) : Prop := x.exponent ≠ 2 ^ 11 - 1

/-- The value of a finite double. The fraction of a subnormal, which has exponent zero, gets no leading one. -/
def value (x : Binary64) : ℚ :=
  (-1) ^ x.sign *
    if x.exponent = 0 then x.fraction / 2 ^ 52 * (2 : ℚ) ^ (-1022 : ℤ)
    else (1 + x.fraction / 2 ^ 52) * (2 : ℚ) ^ ((x.exponent : ℤ) - 1023)

/-! ## Correct rounding -/

/-- A finite double without a sign is nearest to a number, and it is the even one of two that are. -/
structure NearestEven (q : ℚ) (x : Binary64) : Prop where
  unsigned : x.sign = 0
  finite : x.IsFinite
  nearest : ∀ y : Binary64, y.IsFinite → |x.value - q| ≤ |y.value - q|
  even : ∀ y : Binary64, y.IsFinite → y.value ≠ x.value → |y.value - q| = |x.value - q| →
    x.fraction % 2 = 0

/-- The double for a number that is not negative: infinity from halfway between the largest finite double and
the next power of two on, and the nearest double below. -/
structure CorrectlyRounded (q : ℚ) (x : Binary64) : Prop where
  infinity_iff : x = infinity ↔ 2 ^ 1024 - 2 ^ 970 ≤ q
  nearestEven : q < 2 ^ 1024 - 2 ^ 970 → NearestEven q x

/-! ## Magnitudes -/

/-- The bits below the sign. -/
def magnitude (x : Binary64) : Nat := x.bits.toNat % 2 ^ 63

/-- The double without a sign that has the given bits. -/
def ofMagnitude (m : Nat) : Binary64 := ⟨UInt64.ofNat m⟩

theorem toNat_bits (x : Binary64) : x.bits.toNat = x.sign * 2 ^ 63 + x.magnitude :=
  (Nat.div_add_mod' x.bits.toNat (2 ^ 63)).symm

theorem magnitude_lt (x : Binary64) : x.magnitude < 2 ^ 63 :=
  Nat.mod_lt _ (by decide)

theorem sign_cases (x : Binary64) : x.sign = 0 ∨ x.sign = 1 := by
  have hSign : x.sign < 2 := Nat.div_lt_of_lt_mul x.bits.toNat_lt
  omega

theorem exponent_eq (x : Binary64) : x.exponent = x.magnitude / 2 ^ 52 := by
  unfold exponent magnitude
  omega

theorem fraction_eq (x : Binary64) : x.fraction = x.magnitude % 2 ^ 52 := by
  unfold fraction magnitude
  omega

theorem isFinite_iff (x : Binary64) : x.IsFinite ↔ x.magnitude < infinityBits := by
  have hLt := x.magnitude_lt
  rw [IsFinite, exponent_eq, infinityBits]
  omega

theorem sign_ofMagnitude {m : Nat} (h : m < 2 ^ 63) : (ofMagnitude m).sign = 0 := by
  rw [sign, ofMagnitude, UInt64.toNat_ofNat_of_lt' (Nat.lt_trans h (by decide))]
  omega

theorem magnitude_ofMagnitude {m : Nat} (h : m < 2 ^ 63) : (ofMagnitude m).magnitude = m := by
  rw [magnitude, ofMagnitude, UInt64.toNat_ofNat_of_lt' (Nat.lt_trans h (by decide))]
  omega

theorem eq_of_sign_of_magnitude {x y : Binary64} (hSign : x.sign = y.sign)
    (hMagnitude : x.magnitude = y.magnitude) : x = y := by
  have hBits : x.bits.toNat = y.bits.toNat := by rw [toNat_bits, toNat_bits, hSign, hMagnitude]
  exact congrArg mk (UInt64.toNat_inj.mp hBits)

theorem eq_of_magnitude_eq {x y : Binary64} (hx : x.sign = 0) (hy : y.sign = 0)
    (h : x.magnitude = y.magnitude) : x = y :=
  eq_of_sign_of_magnitude (hx.trans hy.symm) h

/-! ## Units -/

/-- The value of a magnitude in units of the least subnormal. The exponent has no bound here. -/
def units (m : Nat) : Nat :=
  if m < 2 ^ 52 then m else (2 ^ 52 + m % 2 ^ 52) * 2 ^ (m / 2 ^ 52 - 1)

/-- A magnitude is a power of two and a coefficient, which has 53 bits unless the power is the lowest one. -/
theorem exists_scaled (m : Nat) :
    ∃ s k, m = s * 2 ^ 52 + k ∧ k < 2 ^ 53 ∧ (s = 0 ∨ 2 ^ 52 ≤ k) := by
  refine ⟨m / 2 ^ 52 - 1, m - (m / 2 ^ 52 - 1) * 2 ^ 52, ?_, ?_, ?_⟩ <;> omega

/-- The coefficient may be the next power of two: then it is carried into the exponent. -/
theorem units_scaled {s k : Nat} (hk : k ≤ 2 ^ 53) (hs : s = 0 ∨ 2 ^ 52 ≤ k) :
    units (s * 2 ^ 52 + k) = k * 2 ^ s := by
  unfold units
  rcases Nat.lt_or_ge k (2 ^ 52) with hLow | hHigh
  · obtain rfl : s = 0 := by omega
    rw [if_pos (by omega)]
    omega
  rw [if_neg (by omega)]
  rcases Nat.lt_or_ge k (2 ^ 53) with hLt | hGe
  · have hMod : (s * 2 ^ 52 + k) % 2 ^ 52 = k - 2 ^ 52 := by omega
    have hDiv : (s * 2 ^ 52 + k) / 2 ^ 52 - 1 = s := by omega
    rw [hMod, hDiv, Nat.add_sub_cancel' hHigh]
  · have hMod : (s * 2 ^ 52 + k) % 2 ^ 52 = 0 := by omega
    have hDiv : (s * 2 ^ 52 + k) / 2 ^ 52 - 1 = s + 1 := by omega
    obtain rfl : k = 2 * 2 ^ 52 := by omega
    rw [hMod, hDiv, Nat.add_zero, Nat.pow_succ']
    ring

theorem units_strictMono : StrictMono units := by
  refine strictMono_nat_of_lt_succ fun m => ?_
  obtain ⟨s, k, rfl, hk, hs⟩ := exists_scaled m
  rw [units_scaled (by omega) hs, Nat.add_assoc, units_scaled (by omega) (by omega)]
  exact Nat.mul_lt_mul_of_pos_right (Nat.lt_succ_self k) (Nat.two_pow_pos s)

theorem value_eq_units (x : Binary64) : x.value = (-1) ^ x.sign * (units x.magnitude / 2 ^ 1074) := by
  have hPow : (2 : ℚ) ^ 1074 = 2 ^ 52 * 2 ^ 1022 := by rw [← pow_add]
  have hZpow : (2 : ℚ) ^ (-1022 : ℤ) = (2 ^ 1022)⁻¹ := by
    rw [zpow_neg]
    rfl
  rw [value, exponent_eq, fraction_eq]
  congr 1
  by_cases hSub : x.magnitude < 2 ^ 52
  · rw [if_pos (by omega), units, if_pos hSub, Nat.mod_eq_of_lt hSub, hPow, hZpow]
    field_simp
  · have hExponent : ((x.magnitude / 2 ^ 52 : Nat) : ℤ) - 1023 =
        ((x.magnitude / 2 ^ 52 - 1 : Nat) : ℤ) + (-1022) := by
      omega
    rw [if_neg (by omega), units, if_neg hSub, hExponent, zpow_add₀ (by norm_num), zpow_natCast,
      hPow, hZpow]
    push_cast
    field_simp
    norm_num

theorem value_of_unsigned {x : Binary64} (h : x.sign = 0) : x.value = units x.magnitude / 2 ^ 1074 := by
  rw [value_eq_units, h, pow_zero, one_mul]

theorem value_cases (x : Binary64) :
    x.value = units x.magnitude / 2 ^ 1074 ∨ x.value = -(units x.magnitude / 2 ^ 1074) := by
  rw [value_eq_units]
  rcases sign_cases x with h | h
  · exact .inl (by rw [h, pow_zero, one_mul])
  · exact .inr (by rw [h, pow_one, neg_one_mul])

theorem value_lt_value {x y : Binary64} (hx : x.sign = 0) (hy : y.sign = 0)
    (h : x.magnitude < y.magnitude) : x.value < y.value := by
  rw [value_of_unsigned hx, value_of_unsigned hy]
  have hUnits : (units x.magnitude : ℚ) < units y.magnitude := by exact_mod_cast units_strictMono h
  gcongr

/-! ## Only one double is correctly rounded -/

variable {q : ℚ} {x y : Binary64}

/-- Between two doubles equally near to a number there is a nearer one, unless they are neighbours, and then
one of them is odd. -/
theorem NearestEven.not_lt (hx : NearestEven q x) (hy : NearestEven q y) :
    ¬ x.magnitude < y.magnitude := by
  intro hLt
  have hFinite := (isFinite_iff y).mp hy.finite
  have hValue := value_lt_value hx.unsigned hy.unsigned hLt
  have hDist : |y.value - q| = |x.value - q| :=
    le_antisymm (hy.nearest x hx.finite) (hx.nearest y hy.finite)
  have hMiddle : y.value - q = q - x.value := by
    rcases abs_eq_abs.mp hDist with h | h
    · exact absurd (sub_left_inj.mp h) hValue.ne'
    · rw [h, neg_sub]
  rcases Nat.lt_or_ge (x.magnitude + 1) y.magnitude with hBetween | hNext
  · have hBound : x.magnitude + 1 < 2 ^ 63 := hBetween.trans y.magnitude_lt
    have hSign := sign_ofMagnitude hBound
    have hMagnitude := magnitude_ofMagnitude hBound
    have hLow : x.value < (ofMagnitude (x.magnitude + 1)).value :=
      value_lt_value hx.unsigned hSign (by omega)
    have hHigh : (ofMagnitude (x.magnitude + 1)).value < y.value :=
      value_lt_value hSign hy.unsigned (by omega)
    have hBetweenFinite : (ofMagnitude (x.magnitude + 1)).IsFinite := (isFinite_iff _).mpr (by omega)
    have hNearer := hx.nearest _ hBetweenFinite
    rw [abs_of_neg (by linarith), le_abs] at hNearer
    rcases hNearer with h | h <;> linarith
  · have hEvenX := hx.even y hy.finite hValue.ne' hDist
    have hEvenY := hy.even x hx.finite hValue.ne hDist.symm
    rw [fraction_eq] at hEvenX hEvenY
    omega

theorem NearestEven.unique (hx : NearestEven q x) (hy : NearestEven q y) : x = y := by
  refine eq_of_magnitude_eq hx.unsigned hy.unsigned ?_
  have h := hx.not_lt hy
  have h' := hy.not_lt hx
  omega

theorem CorrectlyRounded.unique (hx : CorrectlyRounded q x) (hy : CorrectlyRounded q y) : x = y := by
  rcases lt_or_ge q (2 ^ 1024 - 2 ^ 970) with h | h
  · exact (hx.nearestEven h).unique (hy.nearestEven h)
  · rw [hx.infinity_iff.mpr h, hy.infinity_iff.mpr h]

end MiniScheme.Binary64
