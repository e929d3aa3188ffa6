import Mathlib.Algebra.Order.Floor.Div
import Mathlib.Data.PNat.Basic
import Mathlib.Order.GaloisConnection.Defs

/-!
# Quotients rounded up

`DIV_ROUND_UP`, and the round trip from one factor of a total to the least other
factor and back: an antitone Galois connection of the positive numbers with
themselves, so the round trip never goes up, does nothing when repeated and
keeps the order.
-/

namespace KernelLearning.CSemantics

/-! ## Words -/

/-- `DIV_ROUND_UP` of `unsigned long` operands. -/
def divRoundUp (n d : UInt64) : UInt64 := (n + d - 1) / d

theorem toNat_divRoundUp {n d : UInt64} (positive : 0 < d.toNat)
    (fits : n.toNat + d.toNat - 1 < 2 ^ 64) : (divRoundUp n d).toNat = n.toNat ⌈/⌉ d.toNat := by
  have numerator : (n + d - 1).toNat = n.toNat + d.toNat - 1 := by
    have bound := n.toNat_lt
    simp only [UInt64.toNat_sub, UInt64.toNat_add, UInt64.toNat_one]
    omega
  rw [divRoundUp, UInt64.toNat_div, numerator, Nat.ceilDiv_eq_add_pred_div]

/-- Conversion to `long` keeps what fits. -/
theorem toInt_toInt64 {value : UInt64} (half : value.toNat < 2 ^ 63) : value.toInt64.toInt = value.toNat := by
  have bits : 2 * value.toBitVec.toNat < 2 ^ 64 := by
    change 2 * value.toNat < 2 ^ 64
    omega
  exact BitVec.toInt_eq_toNat_of_lt bits

/-! ## The least other factor -/

theorem ceilDiv_pos {total divisor : Nat} (positive : 0 < total) (divides : 0 < divisor) :
    0 < total ⌈/⌉ divisor := by
  rw [Nat.pos_iff_ne_zero]
  intro zero_quotient
  have reaches : total ≤ divisor * 0 := (ceilDiv_le_iff_le_mul divides).1 (Nat.le_of_eq zero_quotient)
  omega

/-- Rounding up twice is rounding up once by the product. -/
theorem ceilDiv_ceilDiv {total first second : Nat} (first_pos : 0 < first) (second_pos : 0 < second) :
    total ⌈/⌉ first ⌈/⌉ second = total ⌈/⌉ (second * first) := by
  refine eq_of_forall_ge_iff fun bound => ?_
  rw [ceilDiv_le_iff_le_mul second_pos, ceilDiv_le_iff_le_mul first_pos,
    ceilDiv_le_iff_le_mul (Nat.mul_pos second_pos first_pos), Nat.mul_comm second first, Nat.mul_assoc]

/-- The least factor that reaches the total together with `step` and the given one. -/
def cofactor (total step factor : ℕ+) : ℕ+ :=
  ⟨(total : Nat) ⌈/⌉ ((step * factor : ℕ+) : Nat), ceilDiv_pos total.pos (step * factor).pos⟩

theorem cofactor_le_iff (total step factor other : ℕ+) :
    cofactor total step factor ≤ other ↔ (total : Nat) ≤ ((step * factor : ℕ+) : Nat) * (other : Nat) := by
  rw [← PNat.coe_le_coe]
  exact ceilDiv_le_iff_le_mul (step * factor).pos

theorem cofactor_galois (total step : ℕ+) :
    GaloisConnection (cofactor total step ∘ OrderDual.ofDual) (OrderDual.toDual ∘ cofactor total step) := by
  intro factor other
  -- Both sides say that the three factors reach the total.
  change cofactor total step (OrderDual.ofDual factor) ≤ other ↔
    cofactor total step other ≤ OrderDual.ofDual factor
  rw [cofactor_le_iff, cofactor_le_iff, PNat.mul_coe, PNat.mul_coe, Nat.mul_right_comm]

theorem cofactor_cofactor_le (total step factor : ℕ+) :
    cofactor total step (cofactor total step factor) ≤ factor :=
  (cofactor_galois total step).l_u_le factor

theorem cofactor_cofactor_cofactor (total step factor : ℕ+) :
    cofactor total step (cofactor total step (cofactor total step factor)) = cofactor total step factor :=
  (cofactor_galois total step).l_u_l_eq_l (OrderDual.toDual factor)

theorem cofactor_antitone (total step : ℕ+) : Antitone (cofactor total step) :=
  fun _ _ smaller => (cofactor_galois total step).monotone_l (OrderDual.toDual_le_toDual.2 smaller)

end KernelLearning.CSemantics
