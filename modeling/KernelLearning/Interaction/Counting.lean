import Mathlib.Algebra.BigOperators.Group.Finset.Piecewise
import Mathlib.Data.Fintype.Card
import Mathlib.Logic.Function.Basic

/-!
# How many threads pass a test
-/

namespace KernelLearning.Interaction

variable {Thread Place : Type} [Fintype Thread]

/-- The number of threads at a place of the kind. -/
def tally (kind : Place → Bool) (places : Thread → Place) : Nat :=
  (Finset.univ.filter fun thread => kind (places thread) = true).card

theorem tally_eq_sum (kind : Place → Bool) (places : Thread → Place) :
    tally kind places = ∑ thread, (kind (places thread)).toNat := by
  rw [tally, Finset.card_filter]
  refine Finset.sum_congr rfl fun thread _ => ?_
  cases kind (places thread) <;> rfl

/-- One thread moves. -/
theorem tally_update [DecidableEq Thread] (kind : Place → Bool) (places : Thread → Place) (thread : Thread)
    (place : Place) :
    tally kind (Function.update places thread place) + (kind (places thread)).toNat =
      tally kind places + (kind place).toNat := by
  have others : ∑ other ∈ Finset.univ.erase thread, (kind (Function.update places thread place other)).toNat =
      ∑ other ∈ Finset.univ.erase thread, (kind (places other)).toNat := by
    refine Finset.sum_congr rfl fun other member => ?_
    rw [Function.update_of_ne (Finset.ne_of_mem_erase member)]
  rw [tally_eq_sum, tally_eq_sum, ← Finset.add_sum_erase _ _ (Finset.mem_univ thread),
    ← Finset.add_sum_erase _ (fun other => (kind (places other)).toNat) (Finset.mem_univ thread), others,
    Function.update_self]
  omega

/-- If at most one thread passes, two that pass are the same. -/
theorem eq_of_tally_le_one (kind : Place → Bool) (places : Thread → Place) (few : tally kind places ≤ 1)
    {thread other : Thread} (here : kind (places thread) = true) (there : kind (places other) = true) :
    thread = other :=
  Finset.card_le_one.mp few thread (by simp [here]) other (by simp [there])

theorem tally_eq_zero (kind : Place → Bool) (places : Thread → Place)
    (nobody : ∀ thread, kind (places thread) = false) : tally kind places = 0 := by
  rw [tally, Finset.card_eq_zero, Finset.filter_eq_empty_iff]
  intro thread _
  simp [nobody thread]

end KernelLearning.Interaction
