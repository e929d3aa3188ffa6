import Mathlib.Data.List.TakeWhile
import KernelLearning.CSemantics.Text

/-!
# Decimal numerals

What `atoi` reads from a numeral and what `%d` prints, and when the two agree.
-/

namespace KernelLearning.CSemantics

/-- A decimal numeral. -/
def IsNumeral (text : List Byte) : Prop := text ≠ [] ∧ ∀ byte ∈ text, isDigit byte = true

/-- A decimal numeral without leading zeros. -/
def IsCanonical (text : List Byte) : Prop := IsNumeral text ∧ (text.head? = some 48 → text = [48])

-- Given as terms: over the finite type of bytes, instance search may enumerate the bytes.

instance (text : List Byte) : Decidable (IsNumeral text) :=
  @instDecidableAnd _ _ inferInstance (List.decidableBAll (isDigit · = true) text)

instance (text : List Byte) : Decidable (IsCanonical text) :=
  inferInstanceAs (Decidable (IsNumeral text ∧ (text.head? = some 48 → text = [48])))

/-! ## Digits -/

def digitValue (byte : Byte) : Nat := byte.toNat - 48

theorem isDigit_iff (byte : Byte) : isDigit byte = true ↔ 48 ≤ byte.toNat ∧ byte.toNat ≤ 57 := by
  unfold isDigit
  rw [Bool.and_eq_true, decide_eq_true_eq, decide_eq_true_eq, UInt8.le_iff_toNat_le, UInt8.le_iff_toNat_le]
  rfl

theorem isSpace_of_isDigit {byte : Byte} (digit : isDigit byte = true) : isSpace byte = false := by
  have bounds := (isDigit_iff byte).mp digit
  unfold isSpace
  rw [Bool.or_eq_false_iff, decide_eq_false_iff_not, Bool.and_eq_false_iff, decide_eq_false_iff_not,
    decide_eq_false_iff_not, UInt8.le_iff_toNat_le, UInt8.le_iff_toNat_le, ← UInt8.toNat_inj]
  exact ⟨by change ¬ byte.toNat = 32; omega, .inr (by change ¬ byte.toNat ≤ 13; omega)⟩

theorem digitByte_digitValue {byte : Byte} (digit : isDigit byte = true) :
    digitByte (digitValue byte) = byte := by
  have bounds := (isDigit_iff byte).mp digit
  unfold digitByte digitValue
  rw [show 48 + (byte.toNat - 48) = byte.toNat by omega]
  exact UInt8.ofNat_toNat

theorem digitValue_digitByte {digit : Nat} (small : digit < 10) : digitValue (digitByte digit) = digit := by
  unfold digitByte digitValue
  rw [UInt8.toNat_ofNat']
  omega

theorem digitValue_lt {byte : Byte} (digit : isDigit byte = true) : digitValue byte < 10 := by
  have bounds := (isDigit_iff byte).mp digit
  unfold digitValue
  omega

theorem digitsValue_eq_ofDigits (text : List Byte) :
    digitsValue text = Nat.ofDigits 10 (text.reverse.map digitValue) := by
  unfold digitsValue
  rw [Nat.ofDigits_eq_foldr, List.foldr_map, ← List.foldl_eq_foldr_reverse]
  congr 1
  funext value digit
  simp [digitValue]
  omega

/-- The numeral of a number has its value. -/
theorem digitsValue_decimalNat (value : Nat) : digitsValue (decimalNat value) = value := by
  unfold decimalNat
  split
  · rename_i zero
    rw [zero]
    rfl
  · have inverse : (Nat.digits 10 value).map (digitValue ∘ digitByte) = Nat.digits 10 value := by
      refine (List.map_congr_left fun digit member => ?_).trans (List.map_id _)
      exact digitValue_digitByte (Nat.digits_lt_base (by omega) member)
    rw [digitsValue_eq_ofDigits, ← List.map_reverse, List.reverse_reverse, List.map_map, inverse,
      Nat.ofDigits_digits]

/-- A canonical numeral is the numeral of its value. -/
theorem decimalNat_digitsValue {text : List Byte} (canonical : IsCanonical text) :
    decimalNat (digitsValue text) = text := by
  obtain ⟨⟨nonempty, digits⟩, noZeros⟩ := canonical
  by_cases zero : text.head? = some 48
  · rw [noZeros zero]
    rfl
  have leading : ∀ nonempty : text.reverse.map digitValue ≠ [],
      (text.reverse.map digitValue).getLast nonempty ≠ 0 := by
    intro _ leadingZero
    cases text with
    | nil => exact nonempty rfl
    | cons head tail =>
      have bounds := (isDigit_iff head).mp (digits head (by simp))
      simp only [List.reverse_cons, List.map_append, List.map_cons, List.map_nil,
        List.getLast_append_singleton, digitValue] at leadingZero
      apply zero
      rw [List.head?_cons, Option.some.injEq, ← UInt8.toNat_inj]
      exact (show head.toNat = 48 by omega)
  have read : Nat.digits 10 (digitsValue text) = text.reverse.map digitValue := by
    rw [digitsValue_eq_ofDigits]
    apply Nat.digits_ofDigits 10 (by omega) _ _ leading
    intro digit member
    obtain ⟨byte, among, rfl⟩ := List.mem_map.mp member
    exact digitValue_lt (digits byte (List.mem_reverse.mp among))
  have positive : digitsValue text ≠ 0 := by
    intro none
    rw [none, Nat.digits_zero] at read
    exact nonempty (List.reverse_eq_nil_iff.mp (List.map_eq_nil_iff.mp read.symm))
  unfold decimalNat
  rw [if_neg positive, read, ← List.map_reverse, List.reverse_reverse, List.map_map]
  refine (List.map_congr_left fun byte member => ?_).trans (List.map_id _)
  exact digitByte_digitValue (digits byte member)

theorem isDigit_digitByte {digit : Nat} (small : digit < 10) : isDigit (digitByte digit) = true := by
  rw [isDigit_iff, digitByte, UInt8.toNat_ofNat']
  omega

theorem isNumeral_decimalNat (value : Nat) : IsNumeral (decimalNat value) := by
  unfold decimalNat
  split
  · decide
  · rename_i nonzero
    refine ⟨fun empty => nonzero ?_, fun byte member => ?_⟩
    · rw [List.map_eq_nil_iff, List.reverse_eq_nil_iff] at empty
      exact Nat.digits_eq_nil_iff_eq_zero.mp empty
    · obtain ⟨digit, among, same⟩ := List.mem_map.mp member
      rw [← same]
      exact isDigit_digitByte (Nat.digits_lt_base (by omega) (List.mem_reverse.mp among))

/-- A number below a power of ten has at most as many digits as its exponent says. -/
theorem length_decimalNat_le {value digits : Nat} (positive : 0 < digits) (small : value < 10 ^ digits) :
    (decimalNat value).length ≤ digits := by
  unfold decimalNat
  split
  · exact positive
  · rw [List.length_map, List.length_reverse]
    exact (Nat.digits_length_le_iff (by omega) value).mpr small

/-! ## Reading and printing -/

/-- What follows a numeral is not read. -/
theorem strtol_numeral_append {text : List Byte} (numeral : IsNumeral text) {rest : List Byte}
    (stops : rest.takeWhile isDigit = []) : strtol (text ++ rest) = min (digitsValue text : Int) (2 ^ 63 - 1) := by
  obtain ⟨nonempty, digits⟩ := numeral
  have taken : (text ++ rest).takeWhile isDigit = text := by
    rw [List.takeWhile_append_of_pos digits, stops, List.append_nil]
  cases text with
  | nil => exact (nonempty rfl).elim
  | cons head tail =>
    have bounds := (isDigit_iff head).mp (digits head (by simp))
    have differs : ∀ other : Byte, other.toNat < 48 → head ≠ other := by
      rintro other small rfl
      omega
    have notSpace := isSpace_of_isDigit (digits head List.mem_cons_self)
    rw [List.cons_append] at taken ⊢
    unfold strtol
    simp only [List.dropWhile_cons, notSpace, Bool.false_eq_true, if_false, taken,
      if_neg (differs 45 (by decide)), if_neg (differs 43 (by decide))]

theorem strtol_numeral {text : List Byte} (numeral : IsNumeral text) :
    strtol text = min (digitsValue text : Int) (2 ^ 63 - 1) := by
  have whole := strtol_numeral_append numeral (show ([] : List Byte).takeWhile isDigit = [] from rfl)
  rwa [List.append_nil] at whole

/-- What `%d` prints of a non-negative number. -/
theorem decimal_natCast (value : Nat) : decimal value = decimalNat value := by
  unfold decimal
  rw [if_neg (by omega), Int.toNat_natCast]

/-- A number is printed as a numeral only if it is the numeral's value. -/
theorem eq_digitsValue_of_decimal_eq {value : Int} {text : List Byte} (numeral : IsNumeral text)
    (printed : decimal value = text) : value = digitsValue text := by
  unfold decimal at printed
  split at printed
  · have sign := numeral.2 45 (by rw [← printed]; simp)
    exact absurd sign (by decide)
  · rw [← printed, digitsValue_decimalNat]
    omega

end KernelLearning.CSemantics
