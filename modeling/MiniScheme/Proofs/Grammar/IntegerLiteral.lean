import MiniScheme.Proofs.Grammar.Completeness
import MiniScheme.Proofs.Datum.Printed
import Mathlib.Data.Nat.Digits.Lemmas

/-!
# Integer literals

An integer is written in decimal digits, with or without a mark, or behind a mark in base sixteen, eight or
two. In each notation the literal ends where the digits of its base end, and its value is the sum of the
digits by their places. So the texts of one number in all notations read to the same datum, and its printed
form is the decimal text from which all others differ by zeros in front (`exists_zeros`).
-/

namespace MiniScheme.Grammar

open Rule

/-! ## Digits and their places -/

theorem positional_eq_sum (base : Nat) (digits : List Char) :
    positional base digits =
      (digits.reverse.mapIdx fun place d => orderedDigits.idxOf d.toLower * base ^ place).sum := by
  rw [positional, Nat.ofDigits_eq_sum_mapIdx]
  simp only [List.mapIdx_eq_zipIdx_map, List.zipIdx_map, List.map_map]
  rfl

theorem exists_digitChar_of_mem_toDigits {base n : Nat} (hBase : 1 < base) {d : Char}
    (h : d ∈ Nat.toDigits base n) : ∃ k < base, d = k.digitChar := by
  induction n using Nat.strongRecOn with
  | ind n ih =>
    rcases Nat.lt_or_ge n base with hn | hn
    · rw [Nat.toDigits_of_lt_base hn, List.mem_singleton] at h
      exact ⟨n, hn, h⟩
    · rw [Nat.toDigits_of_base_le hBase hn, List.mem_append, List.mem_singleton] at h
      rcases h with h | h
      · exact ih (n / base) (Nat.div_lt_self (by omega) hBase) h
      · exact ⟨n % base, Nat.mod_lt n (by omega), h⟩

/-- The digits of a number have its value by their places, in any writing of the single digits. -/
theorem positional_map_toDigits {base : Nat} (hBase : 1 < base) {write : Char → Char}
    (hWrite : ∀ k < base, orderedDigits.idxOf (write k.digitChar).toLower = k) (n : Nat) :
    positional base ((Nat.toDigits base n).map write) = n := by
  induction n using Nat.strongRecOn with
  | ind n ih =>
    rcases Nat.lt_or_ge n base with hn | hn
    · rw [Nat.toDigits_of_lt_base hn]
      simpa [positional] using hWrite n hn
    · rw [Nat.toDigits_of_base_le hBase hn, List.map_append, List.map_singleton, positional_concat,
        ih (n / base) (Nat.div_lt_self (by omega) hBase), hWrite _ (Nat.mod_lt n (by omega))]
      exact Nat.div_add_mod n base

/-! ## The texts of a number -/

theorem run_numeral (levels : Nat) {radix : Radix} (hRadix : radix ∈ radices) {ds rest : List Char}
    (hNe : ds ≠ []) (hAll : ∀ d ∈ ds, radix.isDigit d = true)
    (hRest : rest.head?.any radix.isDigit = false) (offset : Nat) :
    (expression (levels + 1)).run ⟨offset, (radix.mark ++ ds) ++ rest⟩ =
      .ok (.number (positional radix.base ds)) ⟨offset + (radix.mark ++ ds).length, rest⟩ :=
  run_number_rule hRadix hNe hAll hRest _ offset

/-- The writings of a digit: as it is, and in upper case. -/
def digitCases : List (Char → Char) := [id, Char.toUpper]

theorem one_lt_base {radix : Radix} (hRadix : radix ∈ radices) : 1 < radix.base := by
  simp only [radices, List.mem_cons, List.not_mem_nil, or_false] at hRadix
  rcases hRadix with rfl | rfl | rfl | rfl | rfl <;> decide

/-- Below the base of a notation, the digits in either case are its digits and have their values. -/
theorem digitChar_of_mem_radices {radix : Radix} (hRadix : radix ∈ radices) {write : Char → Char}
    (hWrite : write ∈ digitCases) {k : Nat} (hk : k < radix.base) :
    radix.isDigit (write k.digitChar) = true ∧
      orderedDigits.idxOf (write k.digitChar).toLower = k := by
  simp only [digitCases, List.mem_cons, List.not_mem_nil, or_false] at hWrite
  simp only [radices, List.mem_cons, List.not_mem_nil, or_false] at hRadix
  rcases hRadix with rfl | rfl | rfl | rfl | rfl <;> rcases hWrite with rfl | rfl <;>
    (revert k; decide)

/-- The text of a number in a notation, in either case of its digits, reads to that number. -/
theorem run_toDigits (levels : Nat) {radix : Radix} (hRadix : radix ∈ radices) {write : Char → Char}
    (hWrite : write ∈ digitCases) {rest : List Char} (hRest : rest.head?.any radix.isDigit = false)
    (n offset : Nat) :
    (expression (levels + 1)).run
        ⟨offset, (radix.mark ++ (Nat.toDigits radix.base n).map write) ++ rest⟩ =
      .ok (.number n) ⟨offset + (radix.mark ++ Nat.toDigits radix.base n).length, rest⟩ := by
  have hBase := one_lt_base hRadix
  have hAll : ∀ d ∈ (Nat.toDigits radix.base n).map write, radix.isDigit d = true := by
    intro d hd
    obtain ⟨c, hc, rfl⟩ := List.mem_map.mp hd
    obtain ⟨k, hk, rfl⟩ := exists_digitChar_of_mem_toDigits hBase hc
    exact (digitChar_of_mem_radices hRadix hWrite hk).1
  have hNe : (Nat.toDigits radix.base n).map write ≠ [] := by
    simp
  have hValue : positional radix.base ((Nat.toDigits radix.base n).map write) = n :=
    positional_map_toDigits hBase (fun k hk => (digitChar_of_mem_radices hRadix hWrite hk).2) n
  have hLength : (radix.mark ++ Nat.toDigits radix.base n).length =
      (radix.mark ++ (Nat.toDigits radix.base n).map write).length := by
    simp
  rw [run_numeral levels hRadix hNe hAll hRest offset, hValue, hLength]

/-! ## The shortest decimal text -/

theorem digitChar_idxOf {d : Char} (h : d.isDigit = true) :
    orderedDigits.idxOf d.toLower < 10 ∧ (orderedDigits.idxOf d.toLower).digitChar = d := by
  have hAll : ∀ d ∈ "0123456789abcdefABCDEF".toList, d.isDigit = true →
      orderedDigits.idxOf d.toLower < 10 ∧ (orderedDigits.idxOf d.toLower).digitChar = d :=
    Text.forall_mem_of_all (by decide)
  exact hAll d (mem_of_isHexDigit (by simp [Numeral.isHexDigit, h])) h

/-- Decimal digits are zeros in front of the decimal text of their value. -/
theorem exists_zeros {ds : List Char} (hNe : ds ≠ []) (hAll : ∀ d ∈ ds, d.isDigit = true) :
    ∃ zeros, ds = List.replicate zeros '0' ++ Nat.toDigits 10 (positional 10 ds) := by
  induction ds using List.reverseRecOn with
  | nil => exact absurd rfl hNe
  | append_singleton ds d ih =>
    obtain ⟨hLt, hChar⟩ := digitChar_idxOf (hAll d (by simp))
    have hLast : Nat.toDigits 10 (orderedDigits.idxOf d.toLower) = [d] := by
      rw [Nat.toDigits_of_lt_base hLt, hChar]
    rw [positional_concat]
    cases ds with
    | nil => exact ⟨0, by simpa [positional] using hLast.symm⟩
    | cons e ds =>
      obtain ⟨zeros, hZeros⟩ := ih (by simp) fun d hd => hAll d (List.mem_append_left _ hd)
      generalize positional 10 (e :: ds) = m at hZeros
      rcases Nat.eq_zero_or_pos m with rfl | hPos
      · -- All digits but the last one are zeros, the text `0` of their value included.
        refine ⟨zeros + 1, ?_⟩
        rw [hZeros, Nat.mul_zero, Nat.zero_add, hLast, List.replicate_succ']
        rfl
      · refine ⟨zeros, ?_⟩
        rw [← Nat.toDigits_append_toDigits (by decide) hPos hLt, hLast, ← List.append_assoc, ← hZeros]

/-! ## The value of a binary text -/

theorem binaryValue_append (x y : List Char) :
    Numeral.binaryValue (x ++ y) =
      Numeral.binaryValue x * 2 ^ y.length + Numeral.binaryValue y := by
  induction y using List.reverseRecOn with
  | nil => simp [Numeral.binaryValue]
  | append_singleton y d ih =>
    rw [← List.append_assoc, Numeral.binaryValue_concat, Numeral.binaryValue_concat, ih,
      List.length_append, List.length_singleton, Nat.pow_succ]
    ring

/-! ## All notations -/

/-- A literal of digits in any base and with any zeros in front ends before the first character that is no
digit of its base, and it reads to the sum of its digits by their places. So the decimal, hexadecimal, octal
and binary texts of a number all read to it. Its printed form does so too, and every other decimal text of it
has that form behind zeros. The value of two binary texts in a row is the first one's, shifted by the length
of the second, plus the second one's. -/
theorem integer_notations_agree (levels : Nat) :
    (∀ radix ∈ radices, ∀ (ds rest : List Char) (offset : Nat), ds ≠ [] →
      (∀ d ∈ ds, radix.isDigit d = true) → rest.head?.any radix.isDigit = false →
      (expression (levels + 1)).run ⟨offset, (radix.mark ++ ds) ++ rest⟩ =
        .ok (.number
            (ds.reverse.mapIdx fun place d => orderedDigits.idxOf d.toLower * radix.base ^ place).sum)
          ⟨offset + (radix.mark ++ ds).length, rest⟩) ∧
    (∀ radix ∈ radices, ∀ write ∈ digitCases, ∀ (n : Nat) (rest : List Char) (offset : Nat),
      rest.head?.any radix.isDigit = false →
      (expression (levels + 1)).run
          ⟨offset, (radix.mark ++ (Nat.toDigits radix.base n).map write) ++ rest⟩ =
        .ok (.number n) ⟨offset + (radix.mark ++ Nat.toDigits radix.base n).length, rest⟩) ∧
    (∀ n : Nat, ∃ ds : List Char,
      (∀ printLevels, (Datum.number n).printWithin (printLevels + 1) = .ok (String.ofList ds)) ∧
      (expression (levels + 1)).run (.start ds) = .ok (.number n) ⟨ds.length, []⟩ ∧
      ∀ es, es ≠ [] → (∀ e ∈ es, e.isDigit = true) → positional 10 es = n →
        ds.length ≤ es.length ∧ ∃ zeros, es = List.replicate zeros '0' ++ ds) ∧
    ∀ x y, Numeral.binaryValue (x ++ y) =
      Numeral.binaryValue x * 2 ^ y.length + Numeral.binaryValue y := by
  refine ⟨?_, ?_, ?_, binaryValue_append⟩
  · intro radix hRadix ds rest offset hNe hAll hRest
    rw [← positional_eq_sum]
    exact run_numeral levels hRadix hNe hAll hRest offset
  · intro radix hRadix write hWrite n rest offset hRest
    exact run_toDigits levels hRadix hWrite hRest n offset
  · intro n
    refine ⟨Nat.toDigits 10 n, fun _ => rfl, ?_, ?_⟩
    · have hRadix : ⟨[], Char.isDigit, 10⟩ ∈ radices := by simp [radices]
      have hWrite : id ∈ digitCases := by simp [digitCases]
      have hEnd : ([] : List Char).head?.any Char.isDigit = false := rfl
      simpa [Cursor.start] using run_toDigits levels hRadix hWrite hEnd n 0
    · intro es hNe hAll hValue
      obtain ⟨zeros, hZeros⟩ := exists_zeros hNe hAll
      rw [hValue] at hZeros
      refine ⟨?_, zeros, hZeros⟩
      rw [hZeros, List.length_append]
      exact Nat.le_add_left _ _

/-- A hexadecimal literal in both cases and with a zero in front, right before a letter that is no digit, and
the same number in binary before a digit of a larger base. -/
theorem integer_notations_agree_hex :
    (∀ d ∈ "0aF".toList, Numeral.isHexDigit d = true) ∧
    (expression 1).run ⟨0, "#x0aFg".toList⟩ = .ok (.number 175) ⟨5, ['g']⟩ ∧
    (expression 1).run ⟨0, "#b101011112".toList⟩ = .ok (.number 175) ⟨10, ['2']⟩ ∧
    ∃ zeros, "0175".toList = List.replicate zeros '0' ++ "175".toList := by
  have hDigits : ∀ d ∈ "0aF".toList, Numeral.isHexDigit d = true := Text.forall_mem_of_all (by decide)
  have hHex : ⟨['#', 'x'], Numeral.isHexDigit, 16⟩ ∈ radices := by simp [radices]
  have hBinary : ⟨['#', 'b'], Numeral.isBinaryDigit, 2⟩ ∈ radices := by simp [radices]
  have hCase : id ∈ digitCases := by simp [digitCases]
  obtain ⟨hPlaces, hTexts, hPrint, -⟩ := integer_notations_agree 0
  refine ⟨hDigits, hPlaces _ hHex _ ['g'] 0 (by simp) hDigits rfl,
    hTexts _ hBinary _ hCase 175 ['2'] 0 rfl, ?_⟩
  obtain ⟨ds, hText, -, hZeros⟩ := hPrint 175
  have hDecimal : String.ofList ds = "175" := (Except.ok.inj (hText 0)).symm
  obtain rfl : ds = "175".toList := by rw [← hDecimal, String.toList_ofList]
  exact (hZeros "0175".toList (by simp) (Text.forall_mem_of_all (by decide)) rfl).2

end MiniScheme.Grammar
