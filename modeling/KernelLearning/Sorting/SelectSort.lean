import Mathlib.Data.Int.Order.Basic
import KernelLearning.CSemantics.Segments

/-!
# selectsort

`selectsort1` brings the smallest element of what is left to the front, turn by turn
of a loop; `selectsort2` does it call by call of a recursion.  The result is `none`
if an index is outside the array.
-/

namespace KernelLearning.Sorting

open CSemantics

/-! ## The program -/

/-- The loop over `j`, which both variants have, from `min_index = start` on. -/
def minIndex (arr : Array Int) (start len : Int) : Option Int :=
  forLoop start len (fun j min_index =>
    (readAt arr j).bind fun x => (readAt arr min_index).map fun y => if x < y then j else min_index) start

/-- The search and `swap(arr[i], arr[min_index])`. -/
def selectTurn (len i : Int) (arr : Array Int) : Option (Array Int) :=
  (minIndex arr i len).bind fun min_index => swapAt arr i min_index

def selectsort1 (arr : Array Int) (len : Int) : Option (Array Int) := forLoop 0 len (selectTurn len) arr

def selectsort2 (arr : Array Int) (start len : Int) : Option (Array Int) :=
  if beyond : start ≥ len then some arr
  else (selectTurn len start arr).bind fun arr => selectsort2 arr (start + 1) len
termination_by (len - start).toNat

/-! ## One turn -/

variable {arr : Array Int} {start len i : Int}

/-- The index of a smallest element from the start on. -/
theorem minIndex_spec (within : Within arr start (len - 1)) (some_ : start < len) :
    ∃ m y, minIndex arr start len = some m ∧ start ≤ m ∧ m < len ∧ readAt arr m = some y ∧
      AllAt start (len - 1) (y ≤ ·) arr := by
  -- `min_index` is that of a smallest element before `j`
  obtain ⟨m, done, low, high, y, found, least⟩ := forLoop_spec
    (fun j min_index => (readAt arr j).bind fun x => (readAt arr min_index).map fun y => if x < y then j else min_index)
    (fun j m => start ≤ m ∧ m < len ∧ ∃ y, readAt arr m = some y ∧ AllAt start (j - 1) (y ≤ ·) arr)
    (fun j m low high invariant => by
      obtain ⟨lowM, highM, y, found, least⟩ := invariant
      obtain ⟨x, foundX⟩ := readAt_of_within within low (by omega)
      rw [foundX, Option.bind_some, found, Option.map_some]
      by_cases smaller : x < y
      · refine ⟨j, by rw [if_pos smaller], low, high, x, foundX, fun k z lowK highK foundZ => ?_⟩
        by_cases last : k = j
        · rw [last, foundX, Option.some.injEq] at foundZ
          exact Int.le_of_eq foundZ
        · exact Int.le_trans (Int.le_of_lt smaller) (least k z lowK (by omega) foundZ)
      · refine ⟨m, by rw [if_neg smaller], lowM, highM, y, found, fun k z lowK highK foundZ => ?_⟩
        by_cases last : k = j
        · rw [last, foundX, Option.some.injEq] at foundZ
          omega
        · exact least k z lowK (by omega) foundZ)
    start (by
      obtain ⟨y, found⟩ := readAt_of_within within (Int.le_refl start) (by omega)
      exact ⟨Int.le_refl start, some_, y, found, fun k z lowK highK _ => absurd highK (by omega)⟩)
    (Int.le_of_lt some_)
  exact ⟨m, y, done, low, high, found, least⟩

/-- The smallest element comes to the front. -/
theorem selectTurn_spec (within : Within arr i (len - 1)) (some_ : i < len) :
    ∃ next, selectTurn len i arr = some next ∧ Rearranged i (len - 1) arr next ∧
      ∀ k x y, i ≤ k → k < len → readAt next i = some x → readAt next k = some y → x ≤ y := by
  obtain ⟨m, least, done, low, high, found, smallest⟩ := minIndex_spec within some_
  obtain ⟨next, swapped, moved, nowFirst, _, _⟩ := swapAt_spec within (Int.le_refl i) (by omega) low (by omega)
  refine ⟨next, by rw [selectTurn, done, Option.bind_some, swapped], moved, fun k x y lowK highK foundX foundY => ?_⟩
  rw [nowFirst, found, Option.some.injEq] at foundX
  rw [← foundX]
  exact smallest.rearranged moved k y lowK (by omega) foundY

/-! ## All turns -/

/-- From the start on: the elements before `i` are at most each one behind them. -/
structure Selected (before : Array Int) (start len i : Int) (arr : Array Int) : Prop where
  moved : Rearranged start (len - 1) before arr
  settled : ∀ p q x y, start ≤ p → p < i → p ≤ q → q < len → readAt arr p = some x → readAt arr q = some y → x ≤ y

theorem Selected.turn {before : Array Int} (selected : Selected before start len i arr)
    (within : Within before start (len - 1)) (low : start ≤ i) (high : i < len) :
    ∃ next, selectTurn len i arr = some next ∧ Selected before start len (i + 1) next := by
  have inside : Within arr i (len - 1) := ⟨Int.le_trans within.1 low, (within.rearranged selected.moved).2⟩
  obtain ⟨next, done, moved, least⟩ := selectTurn_spec inside high
  refine ⟨next, done, selected.moved.trans (moved.mono low (Int.le_refl _)),
    fun p q x y lowP before_ ordered highQ foundX foundY => ?_⟩
  by_cases last : p = i
  · rw [last] at foundX ordered
    exact least q x y ordered highQ foundX foundY
  · rw [moved.outside p (by omega)] at foundX
    by_cases behind : i ≤ q
    · -- the elements from `i` on are those that were there
      obtain ⟨q', lowQ', highQ', there⟩ := moved.inside q y behind (by omega) foundY
      exact selected.settled p q' x y lowP (by omega) (by omega) (by omega) foundX there
    · rw [moved.outside q (by omega)] at foundY
      exact selected.settled p q x y lowP (by omega) ordered highQ foundX foundY

/-- The loop from any start on sorts what is left. -/
theorem selectLoop_spec (within : Within arr start (len - 1)) (ordered : start ≤ len) :
    ∃ after, forLoop start len (selectTurn len) arr = some after ∧ Rearranged start (len - 1) arr after ∧
      Ascending start (len - 1) after := by
  obtain ⟨after, done, selected⟩ := forLoop_spec (selectTurn len) (fun i a => Selected arr start len i a)
    (fun i a low high selected => selected.turn within low high) arr
    ⟨.refl _ _ _, fun p q x y low before _ _ _ _ => absurd before (by omega)⟩ ordered
  exact ⟨after, done, selected.moved, fun p q x y low upTo high foundX foundY =>
    selected.settled p q x y low (by omega) upTo (by omega) foundX foundY⟩

/-- The recursion does the turns of the loop. -/
theorem selectsort2_eq_forLoop (arr : Array Int) (start len : Int) :
    selectsort2 arr start len = forLoop start len (selectTurn len) arr := by
  rw [forLoop]
  generalize left : (len - start).toNat = count
  induction count generalizing arr start with
  | zero => rw [selectsort2, dif_pos (by omega), forTurns]
  | succ count inductionHypothesis =>
    rw [selectsort2, dif_neg (by omega), forTurns]
    congr 1
    funext next
    exact inductionHypothesis next (start + 1) (by omega)

/-- Both variants end with the same ascending permutation, and no index is outside the array; from any start
on `selectsort2` sorts what is left and keeps what is before. -/
theorem selectsorts_agree (arr : Array Int) :
    (∃ sorted, selectsort1 arr arr.size = some sorted ∧ selectsort2 arr 0 arr.size = some sorted ∧ sorted.Perm arr ∧
      sorted.toList.Pairwise (· ≤ ·)) ∧
    ∀ start : Nat, start ≤ arr.size → ∃ after, selectsort2 arr start arr.size = some after ∧
      (∀ i : Int, i < start → readAt after i = readAt arr i) ∧
      (after.toList.drop start).Perm (arr.toList.drop start) ∧ (after.toList.drop start).Pairwise (· ≤ ·) := by
  refine ⟨?_, fun start inside => ?_⟩
  · have within : Within arr 0 (arr.size - 1) := ⟨Int.le_refl 0, Int.sub_one_lt_of_le (Int.le_refl _)⟩
    obtain ⟨sorted, done, moved, ascending⟩ := selectLoop_spec within (Int.natCast_nonneg _)
    rw [← moved.size_eq] at ascending
    exact ⟨sorted, done, by rw [selectsort2_eq_forLoop, done], moved.perm, ascending.pairwise⟩
  · have within : Within arr start (arr.size - 1) := ⟨Int.natCast_nonneg start, Int.sub_one_lt_of_le (Int.le_refl _)⟩
    obtain ⟨after, done, moved, ascending⟩ := selectLoop_spec within (Int.ofNat_le.mpr inside)
    have kept : ∀ i : Int, i < start → readAt after i = readAt arr i := fun i before => moved.outside i (.inl before)
    rw [← moved.size_eq] at ascending
    exact ⟨after, by rw [selectsort2_eq_forLoop, done], kept, drop_perm moved.perm kept, ascending.pairwise_drop⟩

end KernelLearning.Sorting
