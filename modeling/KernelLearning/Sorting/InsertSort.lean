import Mathlib.Data.Int.Order.Basic
import KernelLearning.CSemantics.Reordering

/-!
# insertsort

A search from the left finds where `arr[j]` belongs among the elements before it, and
a second loop shifts the elements from there on.  The search reads `arr[i]` before it
tests `i < j`.  The result is `none` if an index is outside the array, or if more
turns are needed than given.
-/

namespace KernelLearning.Sorting

open CSemantics

/-! ## The program -/

/-- `arr[i] < arr[j] && i < j`. -/
def searchGoes (arr : Array Int) (j i : Int) : Option Bool :=
  (readAt arr i).bind fun x => (readAt arr j).map fun y => decide (x < y) && decide (i < j)

/-- Where `arr[j]` is inserted. -/
def searchPlace (turns : Nat) (arr : Array Int) (j : Int) : Option Int :=
  whileLoop (searchGoes arr j) (fun i => some (i + 1)) turns 0

/-- The variables of the loop that shifts. -/
structure Hole where
  arr : Array Int
  x : Int

/-- `arr[x] = arr[x-1]; x = x - 1;`. -/
def shiftHole (h : Hole) : Option Hole :=
  (readAt h.arr (h.x - 1)).bind fun y => (writeAt h.arr h.x y).map fun arr => ⟨arr, h.x - 1⟩

/-- The body of the outer loop. -/
def insertTurn (turns : Nat) (j : Int) (arr : Array Int) : Option (Array Int) :=
  (searchPlace turns arr j).bind fun i =>
    (readAt arr j).bind fun temp =>
      if i ≠ j then
        (whileLoop (fun h => some (decide (h.x > i))) shiftHole turns ⟨arr, j⟩).bind fun h => writeAt h.arr i temp
      else some arr

def insertsort (turns : Nat) (arr : Array Int) (len : Int) : Option (Array Int) :=
  forLoop 1 len (insertTurn turns) arr

/-! ## One turn -/

variable {arr next : Array Int} {i j temp : Int} {turns : Nat} {σ : Equiv.Perm Int}

/-- The search stops at `j`, or on the first element that is not smaller. -/
theorem searchPlace_spec (low : 0 ≤ j) (found : readAt arr j = some temp) (enough : j.toNat < turns) :
    ∃ i, searchPlace turns arr j = some i ∧ 0 ≤ i ∧ i ≤ j ∧ AllAt 0 (i - 1) (· < temp) arr ∧
      (i < j → ∃ x, readAt arr i = some x ∧ temp ≤ x) := by
  have within : Within arr 0 j := ⟨Int.le_refl 0, (within_of_readAt found).2⟩
  -- `arr[i]` is read with `i` up to `j`, where the comparison with itself fails
  obtain ⟨i, done, ⟨nonneg, high, smaller⟩, stops⟩ := whileLoop_spec (searchGoes arr j) (fun i => some (i + 1))
    (fun i => 0 ≤ i ∧ i ≤ j ∧ AllAt 0 (i - 1) (· < temp) arr) (fun i => (j - i).toNat)
    (fun i invariant => by
      obtain ⟨x, here⟩ := readAt_of_within within invariant.1 invariant.2.1
      exact ⟨_, by rw [searchGoes, here, Option.bind_some, found, Option.map_some]⟩)
    (fun i invariant goes => by
      obtain ⟨nonneg, high, smaller⟩ := invariant
      obtain ⟨x, here⟩ := readAt_of_within within nonneg high
      rw [searchGoes, here, Option.bind_some, found, Option.map_some, Option.some.injEq, Bool.and_eq_true,
        decide_eq_true_eq, decide_eq_true_eq] at goes
      refine ⟨i + 1, rfl, ⟨by omega, by omega, fun k y lowK highK foundK => ?_⟩, by omega⟩
      by_cases last : k = i
      · rw [last, here, Option.some.injEq] at foundK
        rw [← foundK]
        exact goes.1
      · exact smaller k y lowK (by omega) foundK)
    0 ⟨Int.le_refl 0, low, fun k y lowK highK _ => absurd highK (by omega)⟩
    (show (j - 0).toNat < turns by omega)
  refine ⟨i, done, nonneg, high, smaller, fun before => ?_⟩
  obtain ⟨x, here⟩ := readAt_of_within within nonneg high
  rw [searchGoes, here, Option.bind_some, found, Option.map_some, Option.some.injEq, decide_eq_true before,
    Bool.and_true, decide_eq_false_iff_not] at stops
  exact ⟨x, here, Int.not_lt.mp stops⟩

/-- `temp` is held back from the hole, and the order is kept as long as no smaller element is shifted. -/
structure Shifting (arr : Array Int) (i j temp : Int) (h : Hole) (whole : Array Int) (σ : Equiv.Perm Int) : Prop
    extends Held (fun k => 0 ≤ k ∧ k ≤ j) arr h.x temp h.arr whole σ where
  low : i ≤ h.x
  ordered : AscendingOn (fun k => 0 ≤ k ∧ k < j) arr →
    (∀ k y, i ≤ k → k < j → readAt arr k = some y → temp ≤ y) → AscendingBut (fun k => 0 ≤ k ∧ k ≤ j) h.x whole

theorem Shifting.initial (nonneg : 0 ≤ j) (before : i ≤ j) (found : readAt arr j = some temp) :
    Shifting arr i j temp ⟨arr, j⟩ arr (Equiv.refl Int) where
  toHeld := .initial ⟨nonneg, Int.le_refl j⟩ found
  low := before
  ordered ascending _ := ascending.but

theorem Shifting.turn {h : Hole} {whole : Array Int} (shifting : Shifting arr i j temp h whole σ) (low : 0 ≤ i)
    (goes : i < h.x) : ∃ h' whole' σ', shiftHole h = some h' ∧ Shifting arr i j temp h' whole' σ' ∧ h'.x < h.x := by
  obtain ⟨atPlace, elsewhere⟩ := shifting.found
  have high := shifting.inside.2
  have bound := (writeAt_done shifting.filled).1.2
  obtain ⟨y, found⟩ : ∃ y, readAt h.arr (h.x - 1) = some y := exists_readAt (by omega) (by omega)
  have inJ : 0 ≤ h.x - 1 ∧ h.x - 1 ≤ j := ⟨by omega, by omega⟩
  obtain ⟨shifted, whole', written, moves, held⟩ :=
    shifting.toHeld.shift inJ (Int.sub_one_lt_of_le (Int.le_refl h.x)) found
  refine ⟨⟨shifted, h.x - 1⟩, whole', _, ?_, ⟨held, Int.le_sub_one_of_lt goes, fun ascending larger => ?_⟩,
    Int.sub_one_lt_of_le (Int.le_refl h.x)⟩
  · rw [shiftHole, found, Option.bind_some, written, Option.map_some]
  · -- what is shifted is an element of `arr` from the place on
    have foundWhole : readAt whole (h.x - 1) = some y := (elsewhere _ (by omega)).trans found
    have stood : readAt arr (h.x - 1) = some y := by
      rw [← foundWhole, shifting.moves.reads, shifting.below _ (by omega)]
    show AscendingBut _ (h.x - 1) whole'
    exact (shifting.ordered ascending larger).shift moves (by omega) inJ shifting.inside (fun k _ less => by omega)
      foundWhole atPlace (larger _ y (by omega) (by omega) stood)

/-- The elements from the place on are shifted and `temp` is written there. -/
theorem shiftLoop_spec (low : 0 ≤ i) (before : i ≤ j) (found : readAt arr j = some temp) (enough : j.toNat < turns) :
    ∃ h next σ, whileLoop (fun h => some (decide (h.x > i))) shiftHole turns ⟨arr, j⟩ = some h ∧ h.x = i ∧
      Shifting arr i j temp h next σ := by
  obtain ⟨h, done, ⟨whole, σ, shifting⟩, stops⟩ := whileLoop_spec (fun h : Hole => some (decide (h.x > i))) shiftHole
    (fun h => ∃ whole σ, Shifting arr i j temp h whole σ) (fun h => (h.x - i).toNat) (fun _ _ => ⟨_, rfl⟩)
    (fun h invariant goes => by
      obtain ⟨whole, σ, shifting⟩ := invariant
      have more : i < h.x := by simpa using goes
      obtain ⟨h', whole', σ', done, kept, less⟩ := shifting.turn low more
      exact ⟨h', done, ⟨whole', σ', kept⟩, by omega⟩)
    ⟨arr, j⟩ ⟨arr, _, .initial (Int.le_trans low before) before found⟩ (show (j - i).toNat < turns by omega)
  refine ⟨h, whole, σ, done, ?_, shifting⟩
  have atLeast := shifting.low
  simp only [Option.some.injEq, decide_eq_false_iff_not] at stops
  omega

/-- One turn moves the elements up to `j`, and when those before `j` ascend, those up to `j` do. -/
theorem insertTurn_spec (low : 0 ≤ j) (found : readAt arr j = some temp) (enough : j.toNat < turns) :
    ∃ next σ, insertTurn turns j arr = some next ∧ Moves σ arr next ∧ (∀ k, ¬ (0 ≤ k ∧ k ≤ j) → σ k = k) ∧
      (AscendingOn (fun k => 0 ≤ k ∧ k < j) arr → AscendingOn (fun k => 0 ≤ k ∧ k ≤ j) next) := by
  obtain ⟨i, searched, nonneg, before, smaller, stopped⟩ := searchPlace_spec low found enough
  rw [insertTurn, searched, Option.bind_some, found, Option.bind_some]
  split
  · rename_i apart
    obtain ⟨h, next, σ, looped, atPlace, shifting⟩ := shiftLoop_spec nonneg before found enough
    have filled := shifting.filled
    rw [atPlace] at filled
    refine ⟨next, σ, by rw [looped, Option.bind_some, filled], shifting.moves, shifting.fixes, fun ascending => ?_⟩
    obtain ⟨x, here, notSmaller⟩ := stopped (by omega)
    have but := shifting.ordered ascending fun k y from_ upto foundY =>
      Int.le_trans notSmaller (ascending i k x y ⟨nonneg, by omega⟩ ⟨by omega, upto⟩ from_ here foundY)
    rw [atPlace] at but
    -- those before the place are smaller
    refine but.done fun k y z inK less foundY foundZ => ?_
    rw [(writeAt_done filled).2.1, Option.some.injEq] at foundZ
    rw [shifting.moves.reads, shifting.below k (by omega)] at foundY
    rw [← foundZ]
    exact Int.le_of_lt (smaller k y inK.1 (by omega) foundY)
  · rename_i same
    rw [not_not] at same
    refine ⟨arr, Equiv.refl Int, rfl, .refl arr, fun _ _ => rfl, fun ascending => ?_⟩
    refine ascending.but.done fun k y z inK less foundY foundZ => ?_
    rw [found, Option.some.injEq] at foundZ
    rw [← foundZ]
    exact Int.le_of_lt (smaller k y inK.1 (by omega) foundY)

/-! ## Sorting -/

/-- The loops end, no index is outside the array, each turn keeps what is above its `j`, and the result is an
ascending permutation. -/
theorem insertsort_sorts (arr : Array Int) {turns : Nat} (enough : arr.size < turns) :
    (∃ sorted, insertsort turns arr arr.size = some sorted ∧ sorted.Perm arr ∧ sorted.toList.Pairwise (· ≤ ·)) ∧
    ∀ (before : Array Int) (j : Int), before.size = arr.size → 1 ≤ j → j < arr.size →
      ∃ after, insertTurn turns j before = some after ∧ ∀ k, j < k → readAt after k = readAt before k := by
  have turn : ∀ (before : Array Int) (j : Int), before.size = arr.size → 1 ≤ j → j < arr.size →
      ∃ next σ, insertTurn turns j before = some next ∧ Moves σ before next ∧ (∀ k, ¬ (0 ≤ k ∧ k ≤ j) → σ k = k) ∧
        (AscendingOn (fun k => 0 ≤ k ∧ k < j) before → AscendingOn (fun k => 0 ≤ k ∧ k ≤ j) next) := by
    intro before j size low high
    obtain ⟨temp, found⟩ : ∃ temp, readAt before j = some temp := exists_readAt (by omega) (by omega)
    exact insertTurn_spec (by omega) found (by omega)
  refine ⟨?_, fun before j size low high => ?_⟩
  · by_cases nonempty : 1 ≤ arr.size
    · obtain ⟨sorted, done, perm, ascending⟩ := forLoop_spec (insertTurn turns)
        (fun j a => a.Perm arr ∧ AscendingOn (fun k => 0 ≤ k ∧ k < j) a)
        (fun j a low high invariant => by
          obtain ⟨next, σ, done, moves, _, keeps⟩ := turn a j invariant.1.size_eq low high
          refine ⟨next, done, moves.perm.trans invariant.1, ?_⟩
          exact (keeps invariant.2).mono fun k _ inside _ => ⟨inside.1, Int.le_of_lt_add_one inside.2⟩)
        arr ⟨.rfl, fun i j x y inI inJ _ foundX foundY => le_of_same (by omega) foundX foundY⟩
        (show (1 : Int) ≤ arr.size by omega)
      refine ⟨sorted, done, perm, ascending.pairwise fun k x found => ?_⟩
      rw [← perm.size_eq]
      exact ⟨(within_of_readAt found).1, (within_of_readAt found).2⟩
    · -- no turn, and nothing to sort
      have none : arr = #[] := Array.size_eq_zero_iff.mp (by omega)
      rw [none]
      exact ⟨#[], rfl, .rfl, .nil⟩
  · obtain ⟨after, σ, done, moves, fixes, _⟩ := turn before j size low high
    refine ⟨after, done, fun k above => ?_⟩
    rw [moves.reads, fixes k (by omega)]

theorem insertsort_sorts_duplicates :
    (∃ sorted, insertsort 4 #[3, 1, 3] 3 = some sorted ∧ sorted.Perm #[3, 1, 3] ∧ sorted.toList.Pairwise (· ≤ ·)) ∧
    ∀ (before : Array Int) (j : Int), before.size = 3 → 1 ≤ j → j < 3 →
      ∃ after, insertTurn 4 j before = some after ∧ ∀ k, j < k → readAt after k = readAt before k :=
  insertsort_sorts #[3, 1, 3] (by decide)

end KernelLearning.Sorting
