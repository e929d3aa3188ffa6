import Mathlib.Algebra.Ring.Int.Defs

/-!
# 32-bit machine words

`int` and `unsigned int` values are integers; a conversion to a 32-bit type and
the result of 32-bit arithmetic are reduced into the range of the type.
-/

namespace KernelLearning.CSemantics

/-- Conversion to `int`. -/
def toInt32 (value : Int) : Int := (value + 2 ^ 31) % 2 ^ 32 - 2 ^ 31

/-- Conversion to `unsigned int`. -/
def toUInt32 (value : Int) : Int := value % 2 ^ 32

def IsInt32 (value : Int) : Prop := -2 ^ 31 ≤ value ∧ value < 2 ^ 31

def IsUInt32 (value : Int) : Prop := 0 ≤ value ∧ value < 2 ^ 32

/-- `+` of `int` values, where an overflow is undefined. -/
def addInt (x y : Int) : Option Int := if -2 ^ 31 ≤ x + y ∧ x + y < 2 ^ 31 then some (x + y) else none

theorem addInt_of_isInt32 {x y : Int} (fits : IsInt32 (x + y)) : addInt x y = some (x + y) := if_pos fits

theorem addInt_eq_none {x y : Int} (overflows : ¬ IsInt32 (x + y)) : addInt x y = none := if_neg overflows

theorem addInt_eq_some_iff {x y sum : Int} : addInt x y = some sum ↔ IsInt32 (x + y) ∧ sum = x + y := by
  rw [addInt, IsInt32]
  split
  · rename_i fits
    rw [Option.some.injEq]
    exact ⟨fun same => ⟨fits, same.symm⟩, fun both => both.2.symm⟩
  · rename_i overflows
    exact ⟨fun none => (Option.some_ne_none _ none.symm).elim, fun both => absurd both.1 overflows⟩

theorem toUInt32_isUInt32 (value : Int) : IsUInt32 (toUInt32 value) := by
  unfold IsUInt32 toUInt32
  omega

theorem toInt32_of_isInt32 {value : Int} (bounds : IsInt32 value) : toInt32 value = value := by
  unfold IsInt32 at bounds
  unfold toInt32
  omega

theorem toUInt32_of_isUInt32 {value : Int} (bounds : IsUInt32 value) : toUInt32 value = value := by
  unfold IsUInt32 at bounds
  unfold toUInt32
  omega

/-- `/` of C rounds towards zero, which is the floor on the non-negative side. -/
theorem tdiv_of_nonneg {value divisor : Int} (nonneg : 0 ≤ value) :
    value.tdiv divisor = value / divisor := Int.tdiv_eq_ediv_of_nonneg nonneg

theorem tdiv_neg_one {divisor : Int} (large : 1 < divisor) : (-1 : Int).tdiv divisor = 0 := by
  rw [Int.neg_tdiv, Int.tdiv_eq_zero_of_lt (by omega) large]
  rfl

end KernelLearning.CSemantics
