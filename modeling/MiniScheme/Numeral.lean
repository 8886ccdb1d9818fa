/-!
# Numerals

Digits in base two, eight, ten and sixteen, the value of a numeral with the most significant digit first,
and the decimal text of an integer.
-/

namespace MiniScheme.Numeral

/-- The digits of base sixteen, in either case. -/
def isHexDigit (c : Char) : Bool :=
  c.isDigit || ('a' ≤ c && c ≤ 'f') || ('A' ≤ c && c ≤ 'F')

/-- The digits of base eight. -/
def isOctalDigit (c : Char) : Bool :=
  '0' ≤ c && c ≤ '7'

/-- The digits of base two. -/
def isBinaryDigit (c : Char) : Bool :=
  c == '0' || c == '1'

/-- The value of a digit of any base up to sixteen. -/
def digitValue (c : Char) : Nat :=
  if c.isDigit then c.toNat - 48
  else if 'a' ≤ c ∧ c ≤ 'f' then c.toNat - 87
  else if 'A' ≤ c ∧ c ≤ 'F' then c.toNat - 55
  else 0

/-- The value of a numeral in the given base. -/
def value (base : Nat) (digits : List Char) : Nat :=
  digits.foldl (fun n d => base * n + digitValue d) 0

/-- The value of a text as a binary numeral in which every character but `0` counts as a one. -/
def binaryValue (digits : List Char) : Nat :=
  digits.foldl (fun n d => 2 * n + if d = '0' then 0 else 1) 0

/-- The decimal text of an integer, without leading zeros. -/
def decimal : Int → String
  | .ofNat n => String.ofList (Nat.toDigits 10 n)
  | .negSucc n => "-" ++ String.ofList (Nat.toDigits 10 (n + 1))

theorem decimal_eq_toString (n : Int) : decimal n = toString n := by
  cases n with
  | ofNat n => exact Nat.toString_eq_ofList_toDigits.symm
  | negSucc n => rfl

theorem decimal_natCast (n : Nat) : decimal n = toString n :=
  Nat.toString_eq_ofList_toDigits.symm

@[simp] theorem value_nil (base : Nat) : value base [] = 0 := rfl

theorem value_concat (base : Nat) (digits : List Char) (d : Char) :
    value base (digits ++ [d]) = base * value base digits + digitValue d := by
  simp [value]

theorem binaryValue_concat (digits : List Char) (d : Char) :
    binaryValue (digits ++ [d]) = 2 * binaryValue digits + if d = '0' then 0 else 1 := by
  simp [binaryValue]

end MiniScheme.Numeral
