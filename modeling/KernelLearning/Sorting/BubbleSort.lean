import Mathlib.Data.Int.Order.Basic
import KernelLearning.CSemantics.Segments

/-!
# bubblesort

`bubblesort1` sweeps over a part of the array that gets shorter with each turn of a
loop, `bubblesort2` with each call of a recursion.  The result is `none` if an index
is outside the array.
-/

namespace KernelLearning.Sorting

open CSemantics

/-! ## The program -/

/-- The body of the loop over `j`, which both variants have. -/
def bubbleTurn (j : Int) (arr : Array Int) : Option (Array Int) :=
  (readAt arr j).bind fun temp =>
    (readAt arr (j + 1)).bind fun x => if temp > x then swapAt arr j (j + 1) else some arr

/-- `for(int j = 0; j < bound; j++)`. -/
def sweep (bound : Int) (arr : Array Int) : Option (Array Int) := forLoop 0 bound bubbleTurn arr

def bubblesort1 (arr : Array Int) (len : Int) : Option (Array Int) := forLoop 1 len (fun i => sweep (len - i)) arr

def bubblesort2 (arr : Array Int) (len : Int) : Option (Array Int) :=
  if short : len < 2 then some arr
  else (sweep (len - 1) arr).bind fun arr => bubblesort2 arr (len - 1)
termination_by len.toNat

/-- The array after `k` turns of the loop over `i`. -/
def bubblesort1After (k : Nat) (arr : Array Int) (len : Int) : Option (Array Int) :=
  forTurns (fun i => sweep (len - i)) k 1 arr

/-- The array that the `k`-th recursive call is given. -/
def bubblesort2After : Nat → Array Int → Int → Option (Array Int)
  | 0, arr, _ => some arr
  | k + 1, arr, len => if len < 2 then none else (sweep (len - 1) arr).bind fun arr => bubblesort2After k arr (len - 1)

/-! ## One sweep -/

variable {arr next : Array Int} {j bound : Int} {k : Nat}

/-- The larger one of two neighbours comes to stand behind the other. -/
theorem bubbleTurn_spec (within : Within arr 0 (j + 1)) (low : 0 ≤ j)
    (most : ∀ i x y, i ≤ j → readAt arr i = some x → readAt arr j = some y → x ≤ y) :
    ∃ next, bubbleTurn j arr = some next ∧ Rearranged 0 (j + 1) arr next ∧
      ∀ i x y, i ≤ j + 1 → readAt next i = some x → readAt next (j + 1) = some y → x ≤ y := by
  obtain ⟨temp, foundJ⟩ := readAt_of_within within low (by omega)
  obtain ⟨x, foundNext⟩ := readAt_of_within within (by omega : 0 ≤ j + 1) (Int.le_refl _)
  rw [bubbleTurn, foundJ, Option.bind_some, foundNext, Option.bind_some]
  split
  · rename_i greater
    obtain ⟨next, swapped, moved, nowJ, nowNext, others⟩ := swapAt_spec within low (by omega : j ≤ j + 1)
      (by omega : 0 ≤ j + 1) (Int.le_refl _)
    -- the element at `j` was the maximum so far, and is larger than the one that follows
    refine ⟨next, swapped, moved, fun i a b before foundA foundB => ?_⟩
    rw [nowNext, foundJ, Option.some.injEq] at foundB
    rw [← foundB]
    by_cases atNext : i = j + 1
    · rw [atNext, nowNext, foundJ, Option.some.injEq] at foundA
      rw [foundA]
    · by_cases atJ : i = j
      · rw [atJ, nowJ, foundNext, Option.some.injEq] at foundA
        omega
      · rw [others i atJ atNext] at foundA
        exact most i a temp (by omega) foundA foundJ
  · rename_i notGreater
    refine ⟨arr, rfl, .refl _ _ _, fun i a b before foundA foundB => ?_⟩
    rw [foundNext, Option.some.injEq] at foundB
    rw [← foundB]
    by_cases atNext : i = j + 1
    · rw [atNext, foundNext, Option.some.injEq] at foundA
      rw [foundA]
    · have least := most i a temp (by omega) foundA foundJ
      omega

/-- A sweep carries the maximum to the end of its part. -/
theorem sweep_spec (within : Within arr 0 bound) (nonneg : 0 ≤ bound) :
    ∃ next, sweep bound arr = some next ∧ Rearranged 0 bound arr next ∧
      ∀ i x y, i ≤ bound → readAt next i = some x → readAt next bound = some y → x ≤ y := by
  refine forLoop_spec bubbleTurn
    (fun j a => Rearranged 0 bound arr a ∧ ∀ i x y, i ≤ j → readAt a i = some x → readAt a j = some y → x ≤ y)
    (fun j a low high invariant => ?_) arr ⟨.refl _ _ _, fun i x y upTo foundX foundY => ?_⟩ nonneg
  · obtain ⟨moved, most⟩ := invariant
    have inside : Within a 0 (j + 1) := ⟨Int.le_refl 0, by have := (within.rearranged moved).2; omega⟩
    obtain ⟨next, done, further, mostNext⟩ := bubbleTurn_spec inside low most
    exact ⟨next, done, moved.trans (further.mono (Int.le_refl 0) high), mostNext⟩
  · have zero : i = 0 := by
      have := (within_of_readAt foundX).1
      omega
    exact le_of_same zero foundX foundY

/-! ## All sweeps -/

/-- The last `k` elements are at their place: none before one of them is larger. -/
def Bubbled (k : Nat) (arr : Array Int) : Prop :=
  ∀ i j x y, i ≤ j → (arr.size : Int) - k ≤ j → readAt arr i = some x → readAt arr j = some y → x ≤ y

/-- One more sweep puts one more element at its place, and leaves those behind it alone. -/
theorem Bubbled.sweep (bubbled : Bubbled k arr) (more : k + 1 < arr.size) :
    ∃ next, Sorting.sweep (arr.size - (1 + k)) arr = some next ∧ next.Perm arr ∧ Bubbled (k + 1) next ∧
      ∀ i, (arr.size : Int) - k ≤ i → readAt next i = readAt arr i := by
  have within : Within arr 0 (arr.size - (1 + k)) := ⟨Int.le_refl 0, by omega⟩
  obtain ⟨next, done, moved, most⟩ := sweep_spec within (by omega)
  refine ⟨next, done, moved.perm, fun i j x y ordered last foundX foundY => ?_,
    fun i last => moved.outside i (by omega)⟩
  rw [moved.size_eq] at last
  by_cases new : j = arr.size - (1 + k)
  · rw [new] at ordered foundY
    exact most i x y ordered foundX foundY
  · rw [moved.outside j (by omega)] at foundY
    by_cases swept : i ≤ arr.size - (1 + k)
    · -- the element was swept, and stood before the last ones
      obtain ⟨i', _, highI', there⟩ := moved.inside i x (within_of_readAt foundX).1 swept foundX
      exact bubbled i' j x y (by omega) (by omega) there foundY
    · rw [moved.outside i (by omega)] at foundX
      exact bubbled i j x y ordered (by omega) foundX foundY

theorem bubblesort1After_succ (k : Nat) (arr : Array Int) (len : Int) :
    bubblesort1After (k + 1) arr len = (bubblesort1After k arr len).bind (sweep (len - (1 + k))) :=
  forTurns_succ (fun i => sweep (len - i)) k 1 arr

/-- Induction on the turns: each puts one more element at its place. -/
theorem bubblesort1After_spec (arr : Array Int) (k : Nat) (few : k = 0 ∨ k < arr.size) :
    ∃ mid, bubblesort1After k arr arr.size = some mid ∧ mid.Perm arr ∧ Bubbled k mid := by
  induction k with
  | zero =>
    refine ⟨arr, rfl, .rfl, fun i j x y _ last _ foundY => ?_⟩
    have := (within_of_readAt foundY).2
    omega
  | succ k inductionHypothesis =>
    obtain ⟨mid, done, perm, bubbled⟩ := inductionHypothesis (by omega)
    have size := perm.size_eq
    obtain ⟨next, swept, moved, further, _⟩ := bubbled.sweep (by omega)
    rw [size] at swept
    exact ⟨next, by rw [bubblesort1After_succ, done, Option.bind_some, swept], moved.trans perm, further⟩

/-- Further turns leave the elements alone that are at their place. -/
theorem bubblesort1After_final (arr : Array Int) (k d : Nat) (few : k + d = 0 ∨ k + d < arr.size) :
    ∃ mid last, bubblesort1After k arr arr.size = some mid ∧ bubblesort1After (k + d) arr arr.size = some last ∧
      ∀ i, (arr.size : Int) - k ≤ i → readAt last i = readAt mid i := by
  induction d with
  | zero =>
    obtain ⟨mid, done, _⟩ := bubblesort1After_spec arr k few
    exact ⟨mid, mid, done, done, fun _ _ => rfl⟩
  | succ d inductionHypothesis =>
    obtain ⟨mid, last, done, doneLast, same⟩ := inductionHypothesis (by omega)
    obtain ⟨last', again, perm, bubbled⟩ := bubblesort1After_spec arr (k + d) (by omega)
    rw [doneLast, Option.some.injEq] at again
    subst again
    have size := perm.size_eq
    obtain ⟨next, swept, _, _, kept⟩ := bubbled.sweep (by omega)
    rw [size] at swept
    refine ⟨mid, next, done, ?_, fun i behind => (kept i (by omega)).trans (same i behind)⟩
    rw [← Nat.add_assoc, bubblesort1After_succ, doneLast, Option.bind_some, swept]

/-! ## Lock step -/

/-- `k` turns of the loop from `i` on are `k` calls of the recursion for a part of that length. -/
theorem forTurns_eq_bubblesort2After {len i part : Int} (same : part = len - i + 1) (few : i + k ≤ len)
    (arr : Array Int) : forTurns (fun i => sweep (len - i)) k i arr = bubblesort2After k arr part := by
  induction k generalizing i part arr with
  | zero => rfl
  | succ k inductionHypothesis =>
    rw [forTurns, bubblesort2After, if_neg (by omega), show part - 1 = len - i by omega]
    congr 1
    funext next
    exact inductionHypothesis (by omega) (by omega) next

theorem bubblesort1After_eq (arr : Array Int) (k : Nat) (few : k = 0 ∨ k < arr.size) :
    bubblesort1After k arr arr.size = bubblesort2After k arr arr.size := by
  cases k with
  | zero => rfl
  | succ k => exact forTurns_eq_bubblesort2After (by omega) (by omega) arr

/-- The recursion goes on from the array its `k`-th call is given. -/
theorem bubblesort2_after (k : Nat) (arr : Array Int) {len : Int} (few : k = 0 ∨ k < len) :
    bubblesort2 arr len = (bubblesort2After k arr len).bind fun mid => bubblesort2 mid (len - k) := by
  induction k generalizing arr len with
  | zero => rw [bubblesort2After, Option.bind_some, Int.natCast_zero, Int.sub_zero]
  | succ k inductionHypothesis =>
    rw [bubblesort2, dif_neg (by omega), bubblesort2After, if_neg (by omega), Option.bind_assoc]
    congr 1
    funext next
    rw [inductionHypothesis next (by omega), show len - 1 - k = len - (k + 1 : Nat) by omega]

/-- With all turns done the array is sorted. -/
theorem Bubbled.pairwise (bubbled : Bubbled (arr.size - 1) arr) : arr.toList.Pairwise (· ≤ ·) := by
  refine Ascending.pairwise fun i j x y low ordered _ foundX foundY => ?_
  by_cases first : j = 0
  · exact le_of_same (by omega) foundX foundY
  · exact bubbled i j x y ordered (by omega) foundX foundY

/-- Both variants end with the same ascending permutation, no index is outside the array, and their arrays
agree after every turn and call, with the last elements final. -/
theorem bubblesorts_agree (arr : Array Int) :
    ∃ sorted, bubblesort1 arr arr.size = some sorted ∧ bubblesort2 arr arr.size = some sorted ∧ sorted.Perm arr ∧
      sorted.toList.Pairwise (· ≤ ·) ∧
      ∀ k : Nat, k ≤ arr.size - 1 → ∃ mid, bubblesort1After k arr arr.size = some mid ∧
        bubblesort2After k arr arr.size = some mid ∧
        ∀ i, (arr.size : Int) - k ≤ i → readAt mid i = readAt sorted i := by
  obtain ⟨sorted, done, perm, bubbled⟩ := bubblesort1After_spec arr (arr.size - 1) (by omega)
  have size := perm.size_eq
  have doneSecond := bubblesort1After_eq arr (arr.size - 1) (by omega)
  rw [done] at doneSecond
  refine ⟨sorted, ?_, ?_, perm, ?_, fun k few => ?_⟩
  · rw [bubblesort1, forLoop, show ((arr.size : Int) - 1).toNat = arr.size - 1 by omega]
    exact done
  · -- one element or none is left
    rw [bubblesort2_after (arr.size - 1) arr (by omega), ← doneSecond, Option.bind_some, bubblesort2,
      dif_pos (by omega)]
  · rw [← size] at bubbled
    exact bubbled.pairwise
  · obtain ⟨mid, last, doneMid, doneLast, same⟩ := bubblesort1After_final arr k (arr.size - 1 - k) (by omega)
    rw [show k + (arr.size - 1 - k) = arr.size - 1 by omega, done, Option.some.injEq] at doneLast
    subst doneLast
    exact ⟨mid, doneMid, by rw [← bubblesort1After_eq arr k (by omega), doneMid], fun i behind => (same i behind).symm⟩

end KernelLearning.Sorting
