import KernelLearning.CSemantics.Rounding
import Mathlib.Order.Bounds.Basic

/-!
# The i2c_bus driver: its clock

`i2c_demo_calc_divider` and the clock operations `i2c_demo_set_rate`,
`i2c_demo_round_rate` and `i2c_demo_recalc_rate`, with `unsigned long` and `long` of
64 bits.  Names that the source does not declare are read as the ones they are next
to: `i2c_demo_calc_divier` as `i2c_demo_calc_divider` and `clk_out` as `clk_tout`.  The
statement that is meant to write `I2C_DEMO_DEL` passes three arguments to `max` and
writes nothing.
-/

namespace KernelLearning.I2cBus

open CSemantics

/-! ## Registers of the clock -/

def regDIV : UInt32 := 0x14
def regCLKT : UInt32 := 0x1c

def cdivMIN : UInt32 := 0x0002
def cdivMAX : UInt32 := 0xFFFE

/-- `-EINVAL` as an `int`. -/
def negEINVAL : Int32 := -22

/-- What each register holds: a read gives what was written last. -/
abbrev Registers := UInt32 → UInt32

def Registers.writel (registers : Registers) (reg val : UInt32) : Registers :=
  fun other => if other = reg then val else registers other

@[simp] theorem Registers.writel_self (registers : Registers) (reg val : UInt32) :
    registers.writel reg val reg = val := if_pos rfl

theorem Registers.writel_other (registers : Registers) {reg other : UInt32} (val : UInt32)
    (different : other ≠ reg) : registers.writel reg val other = registers other := if_neg different

/-! ## The operations -/

/-- `i2c_demo_calc_divider`. -/
def i2cDemoCalcDivider (rate parentRate : UInt64) : Int32 :=
  let divider := (divRoundUp parentRate rate).toUInt32
  let divider := if divider &&& 1 != 0 then divider + 1 else divider
  if divider < cdivMIN || divider > cdivMAX then negEINVAL else divider.toInt32

/-- `i2c_demo_set_rate`, the error it returns or the registers it leaves.  The source returns
nothing after the writes. -/
def i2cDemoSetRate (registers : Registers) (rate parentRate : UInt64) : Except Int32 Registers :=
  let divider := (i2cDemoCalcDivider rate parentRate).toUInt32
  if divider = negEINVAL.toUInt32 then
    .error negEINVAL
  else
    let registers := registers.writel regDIV divider
    let clkTout := if rate > 0xffff * 1000 / 35 then 0xffff else (35 * rate / 1000).toUInt32
    .ok (registers.writel regCLKT clkTout)

/-- `i2c_demo_round_rate`. -/
def i2cDemoRoundRate (rate parentRate : UInt64) : Int64 :=
  let divider := (i2cDemoCalcDivider rate parentRate).toUInt32
  (divRoundUp parentRate divider.toUInt64).toInt64

/-- `i2c_demo_recalc_rate`. -/
def i2cDemoRecalcRate (registers : Registers) (parentRate : UInt64) : UInt64 :=
  divRoundUp parentRate (registers regDIV).toUInt64

/-! ## The divider -/

/-- The least even divider that reaches a rate. -/
def evenDivider (parentRate rate : Nat) : Nat := 2 * (parentRate ⌈/⌉ (2 * rate))

theorem evenDivider_le_iff {parentRate rate half : Nat} (positive : 0 < rate) :
    evenDivider parentRate rate ≤ 2 * half ↔ parentRate ≤ 2 * half * rate := by
  have step : parentRate ⌈/⌉ (2 * rate) ≤ half ↔ parentRate ≤ 2 * rate * half :=
    ceilDiv_le_iff_le_mul (by omega)
  rw [Nat.mul_right_comm, ← step, evenDivider]
  omega

theorem two_le_evenDivider {parentRate rate : Nat} (parent_pos : 0 < parentRate) (positive : 0 < rate) :
    2 ≤ evenDivider parentRate rate := by
  have := ceilDiv_pos parent_pos (show 0 < 2 * rate by omega)
  rw [evenDivider]
  omega

/-- An odd quotient goes up by one, to the even divider of twice the rate. -/
theorem evenDivider_eq (parentRate : Nat) {rate : Nat} (positive : 0 < rate) :
    evenDivider parentRate rate = (parentRate ⌈/⌉ rate) + (parentRate ⌈/⌉ rate) % 2 := by
  rw [evenDivider, ← ceilDiv_ceilDiv positive (by omega), Nat.ceilDiv_eq_add_pred_div]
  omega

/-- The step up to an even divider, which goes past the last word to 0. -/
theorem toNat_bumped (divider : UInt32) :
    (if divider &&& 1 != 0 then divider + 1 else divider).toNat =
      (divider.toNat + divider.toNat % 2) % 2 ^ 32 := by
  have odd : (divider &&& 1).toNat = divider.toNat % 2 := by
    rw [UInt32.toNat_and]
    exact Nat.and_one_is_mod _
  have bound := divider.toNat_lt
  -- the words take the last bit, the numbers the remainder by 2
  by_cases even : divider &&& 1 = 0
  · rw [even] at odd
    rw [if_neg (by simp [even])]
    have : divider.toNat % 2 = 0 := odd.symm
    omega
  · have : divider.toNat % 2 ≠ 0 := by
      rw [← odd]
      exact fun same => even (UInt32.toNat.inj same)
    rw [if_pos (by simpa using even), UInt32.toNat_add]
    have : divider.toNat % 2 = 1 := by omega
    simp only [this]
    rfl

end KernelLearning.I2cBus
