import Mathlib.Data.Int.Order.Basic
import KernelLearning.CSemantics.Arrays
import KernelLearning.CSemantics.Loops

/-!
# fastsort

`_fastsort` splits a range by two pointers that meet on an element of which nothing
is known; a last swap brings it to its side.  The result is `none` if an index is
outside the array, or if more turns are needed than given.
-/

namespace KernelLearning.Sorting

open CSemantics

/-! ## The program -/

/-- The variables of the loop that splits a range. -/
structure Pointers where
  arr : Array Int
  left : Int
  right : Int

/-- `arr[left] < temp && left < right`. -/
def leftGoes (temp : Int) (p : Pointers) : Option Bool :=
  (readAt p.arr p.left).map fun x => decide (x < temp) && decide (p.left < p.right)

/-- `arr[right] >= temp && left < right`. -/
def rightGoes (temp : Int) (p : Pointers) : Option Bool :=
  (readAt p.arr p.right).map fun x => decide (x ≥ temp) && decide (p.left < p.right)

def scanLeft (temp : Int) (turns : Nat) (p : Pointers) : Option Pointers :=
  whileLoop (leftGoes temp) (fun p => some { p with left := p.left + 1 }) turns p

def scanRight (temp : Int) (turns : Nat) (p : Pointers) : Option Pointers :=
  whileLoop (rightGoes temp) (fun p => some { p with right := p.right - 1 }) turns p

/-- One turn of `while(left < right)`. -/
def splitTurn (temp : Int) (turns : Nat) (p : Pointers) : Option Pointers :=
  (scanLeft temp turns p).bind fun p =>
    (scanRight temp turns p).bind fun p =>
      (swapAt p.arr p.left p.right).map fun arr => { p with arr := arr }

def splitRange (temp : Int) (turns : Nat) (p : Pointers) : Option Pointers :=
  whileLoop (fun p => some (decide (p.left < p.right))) (splitTurn temp turns) turns p

/-- The loop that prints the range. -/
def printRange (arr : Array Int) (start last : Int) : Option Unit :=
  forLoop start last (fun i _ => (readAt arr i).map fun _ => ()) ()

def _fastsort : Nat → Array Int → Int → Int → Option (Array Int)
  | 0, _, _, _ => none
  | turns + 1, arr, start, last =>
    if start ≥ last then some arr
    else
      (readAt arr start).bind fun temp =>
        (splitRange temp turns ⟨arr, start + 1, last⟩).bind fun p =>
          (printRange p.arr start last).bind fun _ =>
            (readAt p.arr p.left).bind fun mid =>
              (if mid < temp then swapAt p.arr start p.left else some p.arr).bind fun arr =>
                (_fastsort turns arr start (p.left - 1)).bind fun arr => _fastsort turns arr p.right last

def fastsort (turns : Nat) (arr : Array Int) (len : Int) : Option (Array Int) := _fastsort turns arr 0 (len - 1)

/-! ## Splitting a range -/

/-- What lies beside the pointers is on its side, and the first element is left alone. -/
structure Split (before : Array Int) (start last temp : Int) (p : Pointers) : Prop where
  low : start < p.left
  ordered : p.left ≤ p.right
  high : p.right ≤ last
  moved : Rearranged (start + 1) last before p.arr
  small : AllAt (start + 1) (p.left - 1) (· < temp) p.arr
  large : AllAt (p.right + 1) last (temp ≤ ·) p.arr

variable {before arr : Array Int} {start last temp : Int} {p : Pointers} {turns : Nat}

theorem Split.within (split : Split before start last temp p) (within : Within before start last) :
    Within p.arr start last := within.rearranged split.moved

/-- A loop that moves one of the pointers while its element passes a test: it stops where the
pointers meet, or on an element that does not pass. -/
theorem scan_spec {goes : Pointers → Option Bool} {move : Pointers → Pointers} {place : Pointers → Int}
    {test : Int → Bool}
    (goes_eq : ∀ q, goes q = (readAt q.arr (place q)).map fun x => test x && decide (q.left < q.right))
    (reads : ∀ q, Split before start last temp q → ∃ x, readAt q.arr (place q) = some x)
    (moves : ∀ q x, Split before start last temp q → readAt q.arr (place q) = some x → test x = true →
      q.left < q.right → Split before start last temp (move q) ∧ (move q).arr = q.arr ∧ q.left ≤ (move q).left ∧
        (move q).right ≤ q.right ∧ (move q).right - (move q).left < q.right - q.left)
    (split : Split before start last temp p) (enough : (p.right - p.left).toNat < turns) :
    ∃ q, whileLoop goes (fun p => some (move p)) turns p = some q ∧ Split before start last temp q ∧
      q.arr = p.arr ∧ p.left ≤ q.left ∧ q.right ≤ p.right ∧
      (q.left < q.right → ∃ x, readAt q.arr (place q) = some x ∧ test x = false) := by
  obtain ⟨q, done, ⟨inner, same, further, lower⟩, stops⟩ := whileLoop_spec goes (fun p => some (move p))
    (fun q => Split before start last temp q ∧ q.arr = p.arr ∧ p.left ≤ q.left ∧ q.right ≤ p.right)
    (fun q => (q.right - q.left).toNat)
    (fun q invariant => by
      obtain ⟨x, found⟩ := reads q invariant.1
      exact ⟨_, by rw [goes_eq, found]; rfl⟩)
    (fun q invariant continues => by
      obtain ⟨inner, same, further, lower⟩ := invariant
      obtain ⟨x, found⟩ := reads q inner
      rw [goes_eq, found, Option.map_some, Option.some.injEq, Bool.and_eq_true, decide_eq_true_eq] at continues
      obtain ⟨next, sameNext, furtherNext, lowerNext, closer⟩ := moves q x inner found continues.1 continues.2
      have less := continues.2
      exact ⟨move q, rfl, ⟨next, sameNext.trans same, Int.le_trans further furtherNext,
        Int.le_trans lowerNext lower⟩, by omega⟩)
    p ⟨split, rfl, Int.le_refl _, Int.le_refl _⟩ enough
  -- the pointers are apart, so it was the test that stopped the loop
  refine ⟨q, done, inner, same, further, lower, fun apart => ?_⟩
  obtain ⟨x, found⟩ := reads q inner
  rw [goes_eq, found, Option.map_some, Option.some.injEq] at stops
  exact ⟨x, found, by simpa [apart] using stops⟩

/-- The left pointer stops at the right one, or on an element that is not small. -/
theorem scanLeft_spec (within : Within before start last) (split : Split before start last temp p)
    (enough : (p.right - p.left).toNat < turns) :
    ∃ q, scanLeft temp turns p = some q ∧ Split before start last temp q ∧ q.arr = p.arr ∧ p.left ≤ q.left ∧
      q.right ≤ p.right ∧ (q.left < q.right → ∃ x, readAt q.arr q.left = some x ∧ decide (x < temp) = false) := by
  refine scan_spec (fun _ => rfl) (fun q inner => ?_) (fun q x inner found small apart => ?_) split enough
  · exact readAt_of_within (inner.within within) (Int.le_of_lt inner.low) (Int.le_trans inner.ordered inner.high)
  · refine ⟨{ inner with low := ?_, ordered := ?_, small := ?_ }, rfl, ?_, Int.le_refl _, ?_⟩
    · exact Int.lt_trans inner.low (Int.lt_succ q.left)
    · exact Int.add_one_le_of_lt apart
    · -- the element under the pointer is small, and so are those before it
      intro i y lowI highI there
      by_cases here : i = q.left
      · rw [here, found, Option.some.injEq] at there
        rw [← there]
        exact of_decide_eq_true small
      · exact inner.small i y lowI (by simp only at highI; omega) there
    · exact Int.le_of_lt (Int.lt_succ q.left)
    · simp only
      omega

/-- The right pointer stops at the left one, or on an element that is small. -/
theorem scanRight_spec (within : Within before start last) (split : Split before start last temp p)
    (enough : (p.right - p.left).toNat < turns) :
    ∃ q, scanRight temp turns p = some q ∧ Split before start last temp q ∧ q.arr = p.arr ∧ p.left ≤ q.left ∧
      q.right ≤ p.right ∧ (q.left < q.right → ∃ x, readAt q.arr q.right = some x ∧ decide (x ≥ temp) = false) := by
  refine scan_spec (fun _ => rfl) (fun q inner => ?_) (fun q x inner found large apart => ?_) split enough
  · exact readAt_of_within (inner.within within) (Int.le_of_lt (Int.lt_of_lt_of_le inner.low inner.ordered)) inner.high
  · refine ⟨{ inner with ordered := ?_, high := ?_, large := ?_ }, rfl, Int.le_refl _, ?_, ?_⟩
    · exact Int.le_sub_one_of_lt apart
    · exact Int.le_trans (Int.sub_le_self q.right (by decide)) inner.high
    · intro i y lowI highI there
      by_cases here : i = q.right
      · rw [here, found, Option.some.injEq] at there
        rw [← there]
        exact of_decide_eq_true large
      · exact inner.large i y (by simp only at lowI; omega) highI there
    · exact Int.sub_le_self q.right (by decide)
    · simp only
      omega

/-- What is left to do: a swap puts a small element under the left pointer, which then goes on. -/
def remaining (temp : Int) (p : Pointers) : Nat :=
  2 * (p.right - p.left).toNat + if (readAt p.arr p.left).any (· < temp) then 0 else 1

theorem splitTurn_spec (within : Within before start last) (split : Split before start last temp p)
    (goes : p.left < p.right) (enough : (p.right - p.left).toNat < turns) :
    ∃ q, splitTurn temp turns p = some q ∧ Split before start last temp q ∧
      remaining temp q < remaining temp p := by
  obtain ⟨l, doneL, splitL, sameL, furtherL, lowerL, stopL⟩ := scanLeft_spec within split enough
  have enoughR : (l.right - l.left).toNat < turns :=
    Nat.lt_of_le_of_lt (Int.toNat_le_toNat (Int.sub_le_sub lowerL furtherL)) enough
  obtain ⟨r, doneR, splitR, _, furtherR, lowerR, stopR⟩ := scanRight_spec within splitL enoughR
  -- the swap is between the pointers
  have between : Within r.arr r.left r.right := by
    obtain ⟨zero, bound⟩ := splitR.within within
    exact ⟨Int.le_trans zero (Int.le_of_lt splitR.low), Int.lt_of_le_of_lt splitR.high bound⟩
  obtain ⟨arr, swapped, moved, nowLeft, _, _⟩ := swapAt_spec between (Int.le_refl _) splitR.ordered
    splitR.ordered (Int.le_refl _)
  refine ⟨{ r with arr := arr }, ?_, ⟨splitR.low, splitR.ordered, splitR.high, ?_, ?_, ?_⟩, ?_⟩
  · simp only [splitTurn, doneL, doneR, swapped, Option.bind_some, Option.map_some]
  · exact splitR.moved.trans (moved.mono (Int.add_one_le_of_lt splitR.low) splitR.high)
  · exact splitR.small.beside moved (.inl (Int.sub_one_lt_of_le (Int.le_refl _)))
  · exact splitR.large.beside moved (.inr (Int.lt_succ r.right))
  · -- the pointers moved, or the left one stood on an element that is not small
    simp only [remaining]
    by_cases apart : r.left < r.right
    · have apartL : l.left < l.right := Int.lt_of_le_of_lt furtherR (Int.lt_of_lt_of_le apart lowerR)
      obtain ⟨y, foundR, less⟩ := stopR apart
      obtain ⟨x, foundL, notLess⟩ := stopL apartL
      clear stopL stopR
      have small : (readAt arr r.left).any (· < temp) = true := by
        rw [nowLeft, foundR]
        simpa using less
      rw [small, if_pos rfl]
      by_cases stays : l.left = p.left
      · have stuck : (readAt p.arr p.left).any (· < temp) = false := by
          rw [← sameL, ← stays, foundL]
          exact notLess
        rw [stuck, if_neg Bool.false_ne_true]
        omega
      · omega
    · clear stopL stopR
      split <;> omega

/-- The pointers meet. -/
theorem splitRange_spec (within : Within before start last) (split : Split before start last temp p)
    (enough : 2 * (last - start).toNat < turns) :
    ∃ q, splitRange temp turns p = some q ∧ Split before start last temp q ∧ q.left = q.right := by
  have low := split.low
  have high := split.high
  have size : ∀ q, Split before start last temp q → (q.right - q.left).toNat < turns := by
    intro q inner
    have := inner.low
    have := inner.high
    omega
  have startEnough : remaining temp p < turns := by
    simp only [remaining]
    have := split.ordered
    split <;> omega
  -- the variant is what remains
  obtain ⟨q, done, inner, stops⟩ :=
    whileLoop_spec (fun p : Pointers => some (decide (p.left < p.right))) (splitTurn temp turns)
      (Split before start last temp) (remaining temp) (fun _ _ => ⟨_, rfl⟩)
      (fun q inner goes => splitTurn_spec within inner (by simpa using goes) (size q inner)) p split startEnough
  refine ⟨q, done, inner, ?_⟩
  have := inner.ordered
  simp only [Option.some.injEq, decide_eq_false_iff_not] at stops
  omega

/-! ## Sorting a range -/

theorem printRange_spec (within : Within arr start last) (ordered : start ≤ last) :
    printRange arr start last = some () := by
  obtain ⟨_, done, _⟩ := forLoop_spec (fun i _ => (readAt arr i).map fun _ => ())
    (fun _ (_ : Unit) => True)
    (fun i _ low high _ => by
      obtain ⟨x, found⟩ := readAt_of_within within low (Int.le_of_lt high)
      exact ⟨(), by rw [found]; rfl, trivial⟩)
    () trivial ordered
  exact done

/-- The element where the pointers met goes to its side. -/
theorem lastSwap_spec {mid : Int} (within : Within before start last) (split : Split before start last temp p)
    (first : readAt before start = some temp) (met : p.left = p.right) (middle : readAt p.arr p.left = some mid) :
    ∃ arr, (if mid < temp then swapAt p.arr start p.left else some p.arr) = some arr ∧
      Rearranged start last p.arr arr ∧ AllAt start (p.left - 1) (· ≤ temp) arr ∧
      AllAt p.left last (temp ≤ ·) arr := by
  have low := split.low
  have high := split.high
  have firstHere : readAt p.arr start = some temp := by
    rw [split.moved.outside start (.inl (Int.lt_succ start))]
    exact first
  -- a small element changes places with the first one, which is `temp`
  split
  · rename_i less
    obtain ⟨arr, swapped, moved, nowFirst, nowMiddle, others⟩ := swapAt_spec (split.within within) (Int.le_refl start)
      (by omega) (Int.le_of_lt low) (by omega : p.left ≤ last)
    refine ⟨arr, swapped, moved, fun i x lowI highI found => ?_, fun i x lowI highI found => ?_⟩
    · by_cases here : i = start
      · rw [here, nowFirst, middle, Option.some.injEq] at found
        omega
      · rw [others i here (by omega)] at found
        exact Int.le_of_lt (split.small i x (by omega) highI found)
    · by_cases here : i = p.left
      · rw [here, nowMiddle, firstHere, Option.some.injEq] at found
        omega
      · rw [others i (by omega) here] at found
        exact split.large i x (by omega) highI found
  · rename_i notLess
    refine ⟨p.arr, rfl, .refl _ _ _, fun i x lowI highI found => ?_, fun i x lowI highI found => ?_⟩
    · by_cases here : i = start
      · rw [here, firstHere, Option.some.injEq] at found
        omega
      · exact Int.le_of_lt (split.small i x (by omega) highI found)
    · by_cases here : i = p.left
      · rw [here, middle, Option.some.injEq] at found
        omega
      · exact split.large i x (by omega) highI found

theorem _fastsort_spec (within : Within arr start last) (enough : 2 * (last - start).toNat + 1 < turns) :
    ∃ sorted, _fastsort turns arr start last = some sorted ∧ Rearranged start last arr sorted ∧
      Ascending start last sorted := by
  induction turns generalizing arr start last with
  | zero => exact absurd enough (Nat.not_lt_zero _)
  | succ turns inductionHypothesis =>
    rw [_fastsort]
    split
    · rename_i short
      exact ⟨arr, rfl, .refl _ _ _, ascending_of_le short⟩
    rename_i long
    obtain ⟨temp, first⟩ := readAt_of_within within (Int.le_refl start) (by omega)
    have atStart : Split arr start last temp ⟨arr, start + 1, last⟩ := {
      low := Int.lt_succ start
      ordered := by simp only; omega
      high := Int.le_refl _
      moved := .refl _ _ _
      small := fun i x low high _ => by simp only at high; omega
      large := fun i x low high _ => by simp only at low; omega }
    have enoughTurns : 2 * (last - start).toNat < turns := by omega
    obtain ⟨p, done, split, met⟩ := splitRange_spec within atStart enoughTurns
    have low := split.low
    have high := split.high
    have printed := printRange_spec (split.within within) (by omega)
    obtain ⟨mid, middle⟩ := readAt_of_within (split.within within) (Int.le_of_lt low) (by omega)
    obtain ⟨whole, swapped, moved, small, large⟩ := lastSwap_spec within split first met middle
    have movedWhole : Rearranged start last arr whole := (split.moved.mono (by omega) (Int.le_refl _)).trans moved
    -- the two ranges are shorter and do not meet
    have withinWhole := within.rearranged movedWhole
    have frontWithin : Within whole start (p.left - 1) := ⟨withinWhole.1, by have := withinWhole.2; omega⟩
    obtain ⟨front, doneFront, movedFront, sortedFront⟩ := inductionHypothesis frontWithin (by omega)
    have withinFront := withinWhole.rearranged movedFront
    have backWithin : Within front p.right last := ⟨by have := withinFront.1; omega, withinFront.2⟩
    obtain ⟨sorted, doneBack, movedBack, sortedBack⟩ := inductionHypothesis backWithin (by omega)
    refine ⟨sorted, ?_, ?_, ?_⟩
    · simp only [first, done, printed, middle, swapped, doneFront, doneBack, Option.bind_some]
    · exact (movedWhole.trans (movedFront.mono (Int.le_refl _) (by omega))).trans
        (movedBack.mono (by omega) (Int.le_refl _))
    · rw [← met] at sortedBack movedBack
      exact (sortedFront.beside movedBack (.inl (Int.sub_one_lt_of_le (Int.le_refl _)))).join sortedBack
        ((small.rearranged movedFront).beside movedBack (.inl (Int.sub_one_lt_of_le (Int.le_refl _))))
        ((large.beside movedFront (.inr (Int.sub_one_lt_of_le (Int.le_refl _)))).rearranged movedBack)

/-- With enough turns `fastsort` ends, no index is outside the array, and the result is an ascending
permutation. -/
theorem fastsort_sorts (arr : Array Int) {turns : Nat} (enough : 2 * arr.size + 1 < turns) :
    ∃ sorted, fastsort turns arr arr.size = some sorted ∧ sorted.Perm arr ∧ sorted.toList.Pairwise (· ≤ ·) := by
  have within : Within arr 0 (arr.size - 1) := ⟨Int.le_refl 0, Int.sub_one_lt_of_le (Int.le_refl _)⟩
  have turnsEnough : 2 * ((arr.size : Int) - 1 - 0).toNat + 1 < turns := by omega
  obtain ⟨sorted, done, moved, ascending⟩ := _fastsort_spec within turnsEnough
  refine ⟨sorted, done, moved.perm, Ascending.pairwise ?_⟩
  rw [moved.size_eq]
  exact ascending

/-- `arr` of `main`. -/
def mainArr : Array Int := #[44, 3, 3, 38, 5, 47, 15, 36, 26, 27, 2, 46, 4, 19, 50, 48]

theorem fastsort_sorts_main : ∃ sorted, fastsort 40 mainArr mainArr.size = some sorted ∧ sorted.Perm mainArr ∧
    sorted.toList.Pairwise (· ≤ ·) := fastsort_sorts mainArr (by decide)

end KernelLearning.Sorting
