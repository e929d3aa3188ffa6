import KernelLearning.CSemantics.Numeral

/-!
# What the platform decides

Whether a plain `char` is signed, and which byte of an `int` comes first.
-/

namespace KernelLearning.CSemantics

/-- The byte order, and whether `char` is a signed type. -/
structure Platform where
  bigEndian : Bool
  signedChar : Bool

/-- A board with 64-bit ARM cores. -/
def arm64 : Platform where
  bigEndian := false
  signedChar := false

/-- The number that a `signed char` holds. -/
def signedCharValue (byte : Byte) : Int := if byte < 128 then byte.toNat else (byte.toNat : Int) - 256

namespace Platform

/-- The number that a plain `char` holds. -/
def char (platform : Platform) (byte : Byte) : Int :=
  if platform.signedChar then signedCharValue byte else byte.toNat

/-- `CHAR_MAX` -/
def charMax (platform : Platform) : Nat := if platform.signedChar then 127 else 255

/-- The byte at the address of an `int`. -/
def firstByte (platform : Platform) (value : Int) : Byte :=
  if platform.bigEndian then toChar (value / 2 ^ 24) else toChar value

/-- What a `char` holds after an `int` was stored at its address. -/
def stored (platform : Platform) (number : Nat) : Int := platform.char (platform.firstByte number)

end Platform

theorem signedCharValue_of_lt {byte : Byte} (small : byte < 128) : signedCharValue byte = byte.toNat := if_pos small

variable (platform : Platform)

namespace Platform

/-- The characters below 128 are the same numbers everywhere. -/
theorem char_of_lt {byte : Byte} (small : byte < 128) : platform.char byte = byte.toNat := by
  unfold char
  split
  · exact signedCharValue_of_lt small
  · rfl

theorem charMax_le : platform.charMax ≤ 255 := by
  unfold charMax
  split <;> decide

theorem char_le (byte : Byte) : platform.char byte ≤ platform.charMax := by
  have bound := byte.toNat_lt
  unfold char charMax
  split
  · by_cases small : byte < 128
    · rw [signedCharValue_of_lt small]
      rw [UInt8.lt_iff_toNat_lt] at small
      change byte.toNat < 128 at small
      omega
    · rw [signedCharValue, if_neg small]
      omega
  · omega

/-- A number comes back from a `char` exactly if it is at most `CHAR_MAX`. -/
theorem char_toChar_iff {value : Nat} : platform.char (toChar value) = value ↔ value ≤ platform.charMax := by
  constructor
  · intro same
    have bound := platform.char_le (toChar value)
    omega
  · intro small
    have below := platform.charMax_le
    have kept : (toChar value).toNat = value := by
      rw [toChar, UInt8.toNat_ofNat']
      omega
    unfold char
    unfold charMax at small
    split
    · rename_i signed
      rw [if_pos signed] at small
      have low : toChar value < 128 := by
        rw [UInt8.lt_iff_toNat_lt, kept]
        exact Nat.lt_succ_of_le small
      rw [signedCharValue_of_lt low, kept]
    · rw [kept]

/-- A canonical numeral is printed as it was read exactly if it fits a `char`. -/
theorem decimal_char_atoi_iff {text : List Byte} (canonical : IsCanonical text) :
    decimal (platform.char (toChar (atoi text))) = text ↔ digitsValue text ≤ platform.charMax := by
  have below := platform.charMax_le
  constructor
  · intro printed
    have value := eq_digitsValue_of_decimal_eq canonical.1 printed
    have bound := platform.char_le (toChar (atoi text))
    omega
  · intro small
    have read : atoi text = digitsValue text := by
      unfold atoi
      rw [strtol_numeral canonical.1, min_eq_left (by omega), toInt32_of_isInt32 ⟨by omega, by omega⟩]
    rw [read, platform.char_toChar_iff.mpr small, decimal_natCast, decimalNat_digitsValue canonical]

end Platform

end KernelLearning.CSemantics
