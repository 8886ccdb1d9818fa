import MiniScheme.Numeral

/-!
# Doubles

A double is kept as its 64 bits. The double nearest to a fraction is found in exact arithmetic on natural
numbers: the fraction is measured in units of 2^-1074, the distance of neighbouring subnormals, and rounded
to a multiple of the power of two that leaves it 53 significant bits. Ties go to the even multiple. The
bits below the sign are then the exponent of that power in the upper field plus the multiple: a multiple
with 53 bits carries its leading one into the exponent field, and a carry out of rounding goes there too.
-/

namespace MiniScheme

/-- A double, by the bits of its encoding. -/
structure Binary64 where
  bits : UInt64
deriving DecidableEq, Repr

namespace Binary64

/-- The encoding of positive infinity, the first above those of the finite positive doubles. -/
def infinityBits : Nat := 0x7ff0000000000000

def infinity : Binary64 := ⟨UInt64.ofNat infinityBits⟩

/-- Zero of either sign. -/
def isZero (x : Binary64) : Bool :=
  x.bits == 0 || x.bits == 0x8000000000000000

/-- Numeric equality of doubles that are numbers: the two zeros are equal. -/
def same (x y : Binary64) : Bool :=
  x.bits == y.bits || (x.isZero && y.isZero)

/-- A hash of a double, the same for both zeros. -/
def code (x : Binary64) : UInt64 :=
  hash (if x.isZero then 0 else x.bits)

/-- The integer nearest to `num / den`; of two equally near the even one. -/
def roundHalfEven (num den : Nat) : Nat :=
  let floor := num / den
  let twice := 2 * (num % den)
  if den < twice ∨ (den = twice ∧ floor % 2 = 1) then floor + 1 else floor

/-- The double nearest to `num / den`, ties to even; infinity if that is too large. -/
def nearest (num den : Nat) : Binary64 :=
  let units := num * Nat.pow 2 1074
  let shift := (units / den).log2 - 52
  let bits := shift * Nat.pow 2 52 + roundHalfEven units (den * Nat.pow 2 shift)
  if bits < infinityBits then ⟨UInt64.ofNat bits⟩ else infinity

/-- The double nearest to a natural number. -/
def ofNat (n : Nat) : Binary64 :=
  nearest n 1

/-- The double nearest to the decimal fraction with the given digits before and after the point. -/
def ofDecimal (whole fraction : List Char) : Binary64 :=
  nearest (Numeral.value 10 (whole ++ fraction)) (Nat.pow 10 fraction.length)

end Binary64

end MiniScheme
