import Mathlib.Data.Int.Order.Basic
import KernelLearning.CSemantics.Segments
import KernelLearning.CSemantics.Word

/-!
# mergesort

`_mergesort` sorts both halves of a range and merges them into the same range of
`temp`: first element by element, then what is left of one half as a block.  The
result is `none` if an index is outside an array, or if more turns are needed than
given.
-/

namespace KernelLearning.Sorting

open CSemantics

/-! ## The program -/

/-- The variables of the loop that merges. -/
structure Cursors where
  temp : Array Int
  i : Int
  left_start : Int
  right_start : Int

/-- `temp[i++] = arr[left_start] < arr[right_start] ? arr[left_start++] : arr[right_start++]`. -/
def mergeTurn (arr : Array Int) (c : Cursors) : Option Cursors :=
  (readAt arr c.left_start).bind fun x =>
    (readAt arr c.right_start).bind fun y =>
      if x < y then (writeAt c.temp c.i x).map fun temp => ⟨temp, c.i + 1, c.left_start + 1, c.right_start⟩
      else (writeAt c.temp c.i y).map fun temp => ⟨temp, c.i + 1, c.left_start, c.right_start + 1⟩

/-- `left_start <= left_end && right_start <= right_end`. -/
def mergeGoes (left_end right_end : Int) (c : Cursors) : Bool :=
  decide (c.left_start ≤ left_end) && decide (c.right_start ≤ right_end)

/-- `if(start <= last) memcpy(temp+i, arr+start, (last-start+1)*sizeof(int))`. -/
def copyRest (temp : Array Int) (i : Int) (arr : Array Int) (start last : Int) : Option (Array Int) :=
  if start ≤ last then memcpy temp i arr start (last - start + 1) else some temp

/-- From the two sorted halves of the range on. -/
def mergeHalves (turns : Nat) (arr temp : Array Int) (start mid last : Int) : Option (Array Int × Array Int) :=
  (whileLoop (fun c => some (mergeGoes mid last c)) (mergeTurn arr) turns ⟨temp, start, start, mid + 1⟩).bind fun c =>
    (copyRest c.temp c.i arr c.left_start mid).bind fun temp =>
      (copyRest temp c.i arr c.right_start last).bind fun temp =>
        (memcpy arr start temp start (last - start + 1)).map fun arr => (arr, temp)

/-- `arr` and `temp` afterwards. -/
def _mergesort : Nat → Array Int → Array Int → Int → Int → Option (Array Int × Array Int)
  | 0, _, _, _, _ => none
  | turns + 1, arr, temp, start, last =>
    if start ≥ last then some (arr, temp)
    else
      let mid := start + (last - start).tdiv 2
      (_mergesort turns arr temp start mid).bind fun left =>
        (_mergesort turns left.1 left.2 (mid + 1) last).bind fun right =>
          mergeHalves turns right.1 right.2 start mid last

/-- `int temparr[len]` is not initialised, and needs a positive length. -/
def mergesort (turns : Nat) (indeterminate : Nat → Int) (arr : Array Int) (len : Int) : Option (Array Int) :=
  if 0 < len then
    (_mergesort turns arr (Array.ofFn fun i : Fin len.toNat => indeterminate i) 0 (len - 1)).map Prod.fst
  else none

/-! ## Merging -/

/-- The merge of the program: of equal elements the right one comes first. -/
def merged (left right : List Int) : List Int := List.merge left right fun x y => decide (x < y)

theorem merged_perm (left right : List Int) : (merged left right).Perm (left ++ right) :=
  List.merge_perm_append (fun x y => decide (x < y))

theorem merged_nil_right (left : List Int) : merged left [] = left := List.merge_right left

theorem merged_nil_left (right : List Int) : merged [] right = right := List.nil_merge right

theorem merged_left {x y : Int} (less : x < y) (left right : List Int) :
    merged (x :: left) (y :: right) = x :: merged left (y :: right) := by
  simp [merged, less]

theorem merged_right {x y : Int} (notLess : ¬ x < y) (left right : List Int) :
    merged (x :: left) (y :: right) = y :: merged (x :: left) right := by
  simp [merged, notLess]

theorem merged_pairwise {left right : List Int} (sortedLeft : left.Pairwise (· ≤ ·))
    (sortedRight : right.Pairwise (· ≤ ·)) : (merged left right).Pairwise (· ≤ ·) := by
  induction left generalizing right with
  | nil =>
    rw [merged_nil_left]
    exact sortedRight
  | cons x left inductionLeft =>
    induction right with
    | nil =>
      rw [merged_nil_right]
      exact sortedLeft
    | cons y right inductionRight =>
      obtain ⟨leastX, restX⟩ := List.pairwise_cons.mp sortedLeft
      obtain ⟨leastY, restY⟩ := List.pairwise_cons.mp sortedRight
      -- the element in front is at most each one of both lists
      by_cases less : x < y
      · rw [merged_left less, List.pairwise_cons]
        refine ⟨fun z member => ?_, inductionLeft restX sortedRight⟩
        have somewhere := (merged_perm left (y :: right)).mem_iff.mp member
        rw [List.mem_append, List.mem_cons] at somewhere
        obtain here | here | here := somewhere
        · exact leastX z here
        · rw [here]
          exact Int.le_of_lt less
        · exact Int.le_trans (Int.le_of_lt less) (leastY z here)
      · rw [merged_right less, List.pairwise_cons]
        refine ⟨fun z member => ?_, inductionRight restY⟩
        have somewhere := (merged_perm (x :: left) right).mem_iff.mp member
        rw [List.mem_append, List.mem_cons, or_assoc] at somewhere
        obtain here | here | here := somewhere
        · rw [here]
          exact Int.not_lt.mp less
        · exact Int.le_trans (Int.not_lt.mp less) (leastX z here)
        · exact leastY z here

/-- What is written so far, and what is left of the halves. -/
structure Merging (arr temp : Array Int) (start mid last : Int) (result : List Int) (c : Cursors)
    (written left right : List Int) : Prop where
  written_holds : Holds c.temp start written
  place : c.i = start + written.length
  left_holds : Holds arr c.left_start left
  left_fits : c.left_start + left.length = mid + 1
  right_holds : Holds arr c.right_start right
  right_fits : c.right_start + right.length = last + 1
  whole : written ++ merged left right = result
  room : start + result.length = last + 1
  kept : Kept start last temp c.temp

variable {arr temp : Array Int} {start mid last : Int} {result written left right : List Int} {c : Cursors}
  {turns : Nat}

/-- What both halves have left, the result has left. -/
theorem Merging.length (merging : Merging arr temp start mid last result c written left right) :
    c.i + left.length + right.length = last + 1 := by
  have total := congrArg List.length merging.whole
  rw [List.length_append, (merged_perm left right).length_eq, List.length_append] at total
  have := merging.place
  have := merging.room
  omega

/-- The next element of the merged list is written, and one of the halves is shorter. -/
theorem Merging.write {x l r : Int} {left' right' : List Int} (within : Within temp start last)
    (merging : Merging arr temp start mid last result c written left right) (room : c.i ≤ last)
    (taken : merged left right = x :: merged left' right') (leftHolds : Holds arr l left')
    (leftFits : l + left'.length = mid + 1) (rightHolds : Holds arr r right')
    (rightFits : r + right'.length = last + 1) :
    ∃ temp', writeAt c.temp c.i x = some temp' ∧
      Merging arr temp start mid last result ⟨temp', c.i + 1, l, r⟩ (written ++ [x]) left' right' := by
  have place := merging.place
  obtain ⟨temp', done, new, others⟩ := writeAt_spec (within.kept merging.kept) c.i x (by omega) room
  refine ⟨temp', done, {
    written_holds := ?_
    place := ?_
    left_holds := leftHolds
    left_fits := leftFits
    right_holds := rightHolds
    right_fits := rightFits
    whole := ?_
    room := merging.room
    kept := merging.kept.trans (others.mono (by omega) room) }⟩
  · rw [holds_append, ← place]
    exact ⟨merging.written_holds.beside others (.inl (by omega)), new, trivial⟩
  · simp only [List.length_append, List.length_singleton, place]
    omega
  · rw [← merging.whole, taken, List.append_assoc, List.singleton_append]

theorem mergeTurn_spec (within : Within temp start last)
    (merging : Merging arr temp start mid last result c written left right) (goes : mergeGoes mid last c = true) :
    ∃ next written left' right', mergeTurn arr c = some next ∧
      Merging arr temp start mid last result next written left' right' ∧
      left'.length + right'.length < left.length + right.length := by
  have length := merging.length
  have leftFits := merging.left_fits
  have rightFits := merging.right_fits
  rw [mergeGoes, Bool.and_eq_true, decide_eq_true_eq, decide_eq_true_eq] at goes
  -- both halves have an element
  cases left with
  | nil =>
    rw [List.length_nil] at leftFits
    omega
  | cons x left =>
    cases right with
    | nil =>
      rw [List.length_nil] at rightFits
      omega
    | cons y right =>
      simp only [List.length_cons] at length leftFits rightFits ⊢
      obtain ⟨readX, behindX⟩ := merging.left_holds
      obtain ⟨readY, behindY⟩ := merging.right_holds
      rw [mergeTurn, readX, readY, Option.bind_some, Option.bind_some]
      by_cases less : x < y
      · obtain ⟨temp', done, further⟩ := merging.write within (by omega) (merged_left less left right) behindX
          (by omega) merging.right_holds merging.right_fits
        exact ⟨_, _, _, _, by rw [if_pos less, done, Option.map_some], further, by rw [List.length_cons]; omega⟩
      · obtain ⟨temp', done, further⟩ := merging.write within (by omega) (merged_right less left right)
          merging.left_holds merging.left_fits behindY (by omega)
        exact ⟨_, _, _, _, by rw [if_neg less, done, Option.map_some], further, by rw [List.length_cons]; omega⟩

/-- The loop ends when one of the halves is used up. -/
theorem mergeLoop_spec (within : Within temp start last)
    (merging : Merging arr temp start mid last result c written left right)
    (enough : left.length + right.length < turns) :
    ∃ next written left right, whileLoop (fun c => some (mergeGoes mid last c)) (mergeTurn arr) turns c = some next ∧
      Merging arr temp start mid last result next written left right ∧ (left = [] ∨ right = []) := by
  -- what the cursors have before them
  have ahead : ∀ {c written left right}, Merging arr temp start mid last result c written left right →
      (mid + 1 - c.left_start).toNat + (last + 1 - c.right_start).toNat = left.length + right.length := by
    intro c written left right merging
    have := merging.left_fits
    have := merging.right_fits
    omega
  obtain ⟨next, done, ⟨written, left, right, final⟩, stops⟩ :=
    whileLoop_spec (fun c => some (mergeGoes mid last c)) (mergeTurn arr)
      (fun c => ∃ written left right, Merging arr temp start mid last result c written left right)
      (fun c => (mid + 1 - c.left_start).toNat + (last + 1 - c.right_start).toNat)
      (fun _ _ => ⟨_, rfl⟩)
      (fun c invariant goes => by
        obtain ⟨written, left, right, merging⟩ := invariant
        obtain ⟨next, written', left', right', done, kept, less⟩ :=
          mergeTurn_spec within merging (Option.some.inj goes)
        refine ⟨next, done, ⟨written', left', right', kept⟩, ?_⟩
        rw [ahead kept, ahead merging]
        exact less)
      c ⟨written, left, right, merging⟩ (by rw [ahead merging]; exact enough)
  refine ⟨next, written, left, right, done, final, ?_⟩
  rw [Option.some.injEq, mergeGoes, Bool.and_eq_false_iff, decide_eq_false_iff_not, decide_eq_false_iff_not] at stops
  have leftFits := final.left_fits
  have rightFits := final.right_fits
  rw [← List.length_eq_zero_iff, ← List.length_eq_zero_iff]
  omega

/-- The rest of a half is copied as a block, if there is one. -/
theorem copyRest_spec {rest : List Int} {i first final : Int} (holds : Holds arr first rest)
    (fits : first + rest.length = final + 1) (within : Within temp i last) (room : i + rest.length ≤ last + 1) :
    ∃ after, copyRest temp i arr first final = some after ∧ Holds after i rest ∧ Kept i last temp after := by
  rw [copyRest]
  split
  · have count : final - first + 1 = rest.length := by omega
    rw [count]
    obtain ⟨after, done, copied, kept⟩ := memcpy_spec holds within room
    exact ⟨after, done, copied, kept.mono (Int.le_refl i) (by omega)⟩
  · rename_i nothing
    have none : rest = [] := List.length_eq_zero_iff.mp (by omega)
    rw [none]
    exact ⟨temp, rfl, trivial, .refl _ _ _⟩

/-- Nothing is copied of a half that is used up. -/
theorem copyRest_of_used_up {i first final : Int} (usedUp : first = final + 1) :
    copyRest temp i arr first final = some temp := by
  rw [copyRest, if_neg (by omega)]

/-- After both blocks the merged list stands in `temp`. -/
theorem copyBlocks_spec (within : Within temp start last)
    (merging : Merging arr temp start mid last result c written left right) (usedUp : left = [] ∨ right = []) :
    ∃ after, ((copyRest c.temp c.i arr c.left_start mid).bind fun temp =>
        copyRest temp c.i arr c.right_start last) = some after ∧
      Holds after start result ∧ Kept start last temp after := by
  have length := merging.length
  have place := merging.place
  have leftFits := merging.left_fits
  have rightFits := merging.right_fits
  have inside := within.kept merging.kept
  have behind : Within c.temp c.i last := ⟨Int.le_trans inside.1 (by omega), inside.2⟩
  -- the block behind what is written
  have joined : ∀ {after rest}, written ++ rest = result → Holds after c.i rest → Kept c.i last c.temp after →
      Holds after start result ∧ Kept start last temp after := by
    intro after rest whole copied kept
    refine ⟨?_, merging.kept.trans (kept.mono (by omega) (Int.le_refl last))⟩
    rw [← whole, holds_append, ← place]
    exact ⟨merging.written_holds.beside kept (.inl (by omega)), copied⟩
  obtain usedUp | usedUp := usedUp
  · have whole := merging.whole
    rw [usedUp, List.length_nil] at leftFits length
    rw [usedUp, merged_nil_left] at whole
    obtain ⟨after, done, copied, kept⟩ := copyRest_spec merging.right_holds rightFits behind (by omega)
    refine ⟨after, ?_, joined whole copied kept⟩
    rw [copyRest_of_used_up (by omega), Option.bind_some, done]
  · have whole := merging.whole
    rw [usedUp, List.length_nil] at rightFits length
    rw [usedUp, merged_nil_right] at whole
    obtain ⟨after, done, copied, kept⟩ := copyRest_spec merging.left_holds leftFits behind (by omega)
    refine ⟨after, ?_, joined whole copied kept⟩
    rw [done, Option.bind_some, copyRest_of_used_up (by omega)]

/-- The merge of the two halves stands in the range of `arr`. -/
theorem mergeHalves_spec (withinArr : Within arr start last) (withinTemp : Within temp start last)
    (holdsLeft : Holds arr start left) (fitsLeft : start + left.length = mid + 1)
    (holdsRight : Holds arr (mid + 1) right) (fitsRight : mid + 1 + right.length = last + 1)
    (enough : left.length + right.length < turns) :
    ∃ arr' temp', mergeHalves turns arr temp start mid last = some (arr', temp') ∧
      Holds arr' start (merged left right) ∧ Kept start last arr arr' ∧ Kept start last temp temp' := by
  have room : start + (merged left right).length = last + 1 := by
    rw [(merged_perm left right).length_eq, List.length_append]
    omega
  have atStart : Merging arr temp start mid last (merged left right) ⟨temp, start, start, mid + 1⟩ [] left right := {
    written_holds := trivial
    place := (Int.add_zero start).symm
    left_holds := holdsLeft
    left_fits := fitsLeft
    right_holds := holdsRight
    right_fits := fitsRight
    whole := rfl
    room := room
    kept := .refl _ _ _ }
  -- the loop, the blocks, and the copy back
  obtain ⟨c, written, left', right', looped, merging, usedUp⟩ := mergeLoop_spec withinTemp atStart enough
  obtain ⟨temp', copied, holdsTemp, keptTemp⟩ := copyBlocks_spec withinTemp merging usedUp
  obtain ⟨arr', back, holds, kept⟩ := memcpy_spec holdsTemp withinArr (Int.le_of_eq room)
  have count : last - start + 1 = (merged left right).length := by omega
  refine ⟨arr', temp', ?_, holds, kept.mono (Int.le_refl start) (by omega), keptTemp⟩
  obtain ⟨temp'', first, second⟩ := Option.bind_eq_some_iff.mp copied
  rw [mergeHalves, looped, Option.bind_some, first, Option.bind_some, second, Option.bind_some, count, back,
    Option.map_some]

/-! ## Sorting a range -/

/-- The range is sorted, and nothing is written outside it, whatever `temp` holds. -/
theorem _mergesort_spec {xs : List Int} (withinArr : Within arr start last) (withinTemp : Within temp start last)
    (holds : Holds arr start xs) (fits : start + xs.length = last + 1) (enough : xs.length + 1 < turns) :
    ∃ arr' temp' ys, _mergesort turns arr temp start last = some (arr', temp') ∧ Holds arr' start ys ∧ ys.Perm xs ∧
      ys.Pairwise (· ≤ ·) ∧ Kept start last arr arr' ∧ Kept start last temp temp' := by
  induction turns generalizing arr temp start last xs with
  | zero => exact absurd enough (Nat.not_lt_zero _)
  | succ turns inductionHypothesis =>
    rw [_mergesort]
    split
    · -- at most one element
      rename_i short
      refine ⟨arr, temp, xs, rfl, holds, .refl xs, ?_, .refl _ _ _, .refl _ _ _⟩
      match xs, fits with
      | [], _ => exact .nil
      | [x], _ => exact List.pairwise_singleton _ x
      | _ :: _ :: _, fits =>
        rw [List.length_cons, List.length_cons] at fits
        omega
    rename_i long
    have half : (last - start).tdiv 2 = (last - start) / 2 := Int.tdiv_eq_ediv_of_nonneg (by omega)
    simp only [half]
    -- the two halves of the list
    generalize middle : start + (last - start) / 2 = mid
    obtain ⟨count, size⟩ := Int.eq_ofNat_of_zero_le (show 0 ≤ mid + 1 - start by omega)
    rw [← List.take_append_drop count xs, holds_append] at holds
    obtain ⟨holdsLeft, holdsRight⟩ := holds
    have lengthLeft : (xs.take count).length = count := List.length_take_of_le (by omega)
    have lengthRight : (xs.drop count).length = xs.length - count := List.length_drop
    rw [lengthLeft, show start + (count : Int) = mid + 1 by omega] at holdsRight
    have arrLeft : Within arr start mid := ⟨withinArr.1, Int.lt_of_le_of_lt (by omega) withinArr.2⟩
    have tempLeft : Within temp start mid := ⟨withinTemp.1, Int.lt_of_le_of_lt (by omega) withinTemp.2⟩
    obtain ⟨arrL, tempL, left, doneL, sortsL, permL, ascendingL, keptArrL, keptTempL⟩ :=
      inductionHypothesis arrLeft tempLeft holdsLeft (by omega) (by omega)
    have arrRight : Within arrL (mid + 1) last :=
      ⟨Int.le_trans withinArr.1 (by omega), (withinArr.kept keptArrL).2⟩
    have tempRight : Within tempL (mid + 1) last :=
      ⟨Int.le_trans withinTemp.1 (by omega), (withinTemp.kept keptTempL).2⟩
    obtain ⟨arrR, tempR, right, doneR, sortsR, permR, ascendingR, keptArrR, keptTempR⟩ :=
      inductionHypothesis arrRight tempRight (holdsRight.beside keptArrL (.inr (by omega))) (by omega) (by omega)
    have lengthL := permL.length_eq
    have lengthR := permR.length_eq
    have keptArr := (keptArrL.mono (Int.le_refl start) (by omega)).trans (keptArrR.mono (by omega) (Int.le_refl last))
    have keptTemp :=
      (keptTempL.mono (Int.le_refl start) (by omega)).trans (keptTempR.mono (by omega) (Int.le_refl last))
    have enoughTurns : left.length + right.length < turns := by omega
    obtain ⟨arr', temp', done, sorted, arrKept, tempKept⟩ := mergeHalves_spec (withinArr.kept keptArr)
      (withinTemp.kept keptTemp) (sortsL.beside keptArrR (.inl (by omega))) (by omega) sortsR (by omega) enoughTurns
    refine ⟨arr', temp', merged left right, ?_, sorted, ?_, merged_pairwise ascendingL ascendingR,
      keptArr.trans arrKept, keptTemp.trans tempKept⟩
    · rw [doneL, Option.bind_some, doneR, Option.bind_some, done]
    · calc
        List.Perm (merged left right) (left ++ right) := merged_perm left right
        List.Perm _ (xs.take count ++ xs.drop count) := permL.append permR
        List.Perm _ xs := by rw [List.take_append_drop]

/-- Every call ends, and writes nothing outside its range. -/
theorem _mergesort_keeps (nonneg : 0 ≤ start) (insideArr : last < arr.size) (insideTemp : last < temp.size)
    (enough : (last + 1 - start).toNat + 1 < turns) :
    ∃ arr' temp', _mergesort turns arr temp start last = some (arr', temp') ∧ Kept start last arr arr' ∧
      Kept start last temp temp' := by
  by_cases empty : last < start
  · -- the range is empty
    cases turns with
    | zero => exact absurd enough (Nat.not_lt_zero _)
    | succ turns => exact ⟨arr, temp, by rw [_mergesort, if_pos (Int.le_of_lt empty)], .refl _ _ _, .refl _ _ _⟩
  · have within : Within arr start last := ⟨nonneg, insideArr⟩
    obtain ⟨xs, length, holds⟩ := exists_holds within (last + 1 - start).toNat (by omega)
    obtain ⟨arr', temp', _, done, _, _, _, keptArr, keptTemp⟩ :=
      _mergesort_spec within ⟨nonneg, insideTemp⟩ holds (by omega) (by omega : xs.length + 1 < turns)
    exact ⟨arr', temp', done, keptArr, keptTemp⟩

/-- `mergesort` sorts, and every call of `_mergesort` on the array writes only to its range of both
arrays. -/
theorem mergesort_sorts (arr : Array Int) (indeterminate : Nat → Int) {turns : Nat} (nonempty : 1 ≤ arr.size)
    (enough : arr.size + 1 < turns) :
    (∃ sorted, mergesort turns indeterminate arr arr.size = some sorted ∧ sorted.Perm arr ∧
      sorted.toList.Pairwise (· ≤ ·)) ∧
    ∀ (temp : Array Int) (start last : Int), temp.size = arr.size → 0 ≤ start → last < arr.size →
      ∃ arr' temp', _mergesort turns arr temp start last = some (arr', temp') ∧ Kept start last arr arr' ∧
        Kept start last temp temp' := by
  refine ⟨?_, fun temp start last size low high => _mergesort_keeps low high (by omega) (by omega)⟩
  have positive : 0 < (arr.size : Int) := Int.natCast_pos.mpr nonempty
  have whole : Within arr 0 (arr.size - 1) := ⟨Int.le_refl 0, Int.sub_one_lt_of_le (Int.le_refl _)⟩
  obtain ⟨xs, length, holds⟩ := exists_holds whole arr.size (by omega)
  rw [mergesort, if_pos positive]
  -- of `temparr` only its size is known
  generalize allocated : (Array.ofFn fun i : Fin (arr.size : Int).toNat => indeterminate i) = temparr
  have size : temparr.size = arr.size := by rw [← allocated, Array.size_ofFn, Int.toNat_natCast]
  have scratch : Within temparr 0 (arr.size - 1) := ⟨Int.le_refl 0, by rw [size]; exact whole.2⟩
  obtain ⟨arr', temp', ys, done, sorted, perm, ascending, kept, _⟩ :=
    _mergesort_spec whole scratch holds (by omega) (by omega : xs.length + 1 < turns)
  refine ⟨arr', by rw [done, Option.map_some], perm_of_holds holds sorted perm whole (by omega) kept, ?_⟩
  rw [toList_eq_of_holds sorted (by rw [perm.length_eq, length, kept.size])]
  exact ascending

theorem mergesort_sorts_pair :
    (∃ sorted, mergesort 4 (fun _ => 7) #[3, 1] 2 = some sorted ∧ sorted.Perm #[3, 1] ∧
      sorted.toList.Pairwise (· ≤ ·)) ∧
    ∀ (temp : Array Int) (start last : Int), temp.size = 2 → 0 ≤ start → last < 2 →
      ∃ arr' temp', _mergesort 4 #[3, 1] temp start last = some (arr', temp') ∧ Kept start last #[3, 1] arr' ∧
        Kept start last temp temp' := mergesort_sorts #[3, 1] (fun _ => 7) (by decide) (by decide)

end KernelLearning.Sorting
