import Mathlib.Order.Basic

/-!
# Arrays with checked indices

An index is an `int`, and an access outside the array fails.  `Rearranged` is what a
procedure that only moves the elements of a range does to the array; it composes,
and what holds of all elements of the range is kept by it.
-/

namespace KernelLearning.CSemantics

variable {α : Type}

/-- `arr[i]`. -/
def readAt (arr : Array α) (i : Int) : Option α := if 0 ≤ i then arr[i.toNat]? else none

/-- `arr[i] = value`. -/
def writeAt (arr : Array α) (i : Int) (value : α) : Option (Array α) :=
  if inside : 0 ≤ i ∧ i.toNat < arr.size then some (arr.set i.toNat value inside.2) else none

/-- `t = *x; *x = *y; *y = t;` with `x = arr + i` and `y = arr + j`. -/
def swapAt (arr : Array α) (i j : Int) : Option (Array α) :=
  (readAt arr i).bind fun t => (readAt arr j).bind fun y => (writeAt arr i y).bind fun arr => writeAt arr j t

/-- The range is inside the array. -/
def Within (arr : Array α) (first last : Int) : Prop := 0 ≤ first ∧ last < arr.size

/-- All elements of a range, its ends included. -/
def AllAt (first last : Int) (holds : α → Prop) (arr : Array α) : Prop :=
  ∀ i x, first ≤ i → i ≤ last → readAt arr i = some x → holds x

def Ascending [LE α] (first last : Int) (arr : Array α) : Prop :=
  ∀ i j x y, first ≤ i → i ≤ j → j ≤ last → readAt arr i = some x → readAt arr j = some y → x ≤ y

/-- The elements of the range are moved inside it, and nothing else happens. -/
structure Rearranged (first last : Int) (before after : Array α) : Prop where
  perm : after.Perm before
  outside : ∀ i, i < first ∨ last < i → readAt after i = readAt before i
  inside : ∀ i x, first ≤ i → i ≤ last → readAt after i = some x →
    ∃ j, first ≤ j ∧ j ≤ last ∧ readAt before j = some x

variable {arr before after : Array α} {first last i j : Int} {holds : α → Prop}

/-! ## Single accesses -/

theorem readAt_of_within (within : Within arr first last) (low : first ≤ i) (high : i ≤ last) :
    ∃ x, readAt arr i = some x := by
  obtain ⟨zero, bound⟩ := within
  have inside : i.toNat < arr.size := by omega
  exact ⟨arr[i.toNat], by rw [readAt, if_pos (Int.le_trans zero low), Array.getElem?_eq_getElem inside]⟩

theorem exists_readAt (nonneg : 0 ≤ i) (bound : i < arr.size) : ∃ x, readAt arr i = some x :=
  readAt_of_within (⟨nonneg, bound⟩ : Within arr i i) (Int.le_refl i) (Int.le_refl i)

theorem readAt_natCast (arr : Array α) (index : Nat) : readAt arr index = arr[index]? := by
  simp [readAt]

/-! ## Rearranging -/

theorem Rearranged.refl (first last : Int) (arr : Array α) : Rearranged first last arr arr where
  perm := .rfl
  outside _ _ := rfl
  inside i _ low high found := ⟨i, low, high, found⟩

theorem Rearranged.trans {middle : Array α} (earlier : Rearranged first last before middle)
    (later : Rearranged first last middle after) : Rearranged first last before after where
  perm := later.perm.trans earlier.perm
  outside i beyond := (later.outside i beyond).trans (earlier.outside i beyond)
  inside i x low high found := by
    obtain ⟨j, lowJ, highJ, there⟩ := later.inside i x low high found
    exact earlier.inside j x lowJ highJ there

theorem Rearranged.mono {first' last' : Int} (rearranged : Rearranged first' last' before after)
    (low : first ≤ first') (high : last' ≤ last) : Rearranged first last before after where
  perm := rearranged.perm
  outside i beyond := rearranged.outside i (by omega)
  inside i x lowI highI found := by
    by_cases inner : first' ≤ i ∧ i ≤ last'
    · obtain ⟨j, lowJ, highJ, there⟩ := rearranged.inside i x inner.1 inner.2 found
      exact ⟨j, by omega, by omega, there⟩
    · rw [rearranged.outside i (by omega)] at found
      exact ⟨i, lowI, highI, found⟩

theorem Rearranged.size_eq (rearranged : Rearranged first last before after) : after.size = before.size :=
  rearranged.perm.size_eq

theorem Within.rearranged {first' last' : Int} (within : Within before first last)
    (rearranged : Rearranged first' last' before after) : Within after first last := by
  rw [Within, rearranged.size_eq]
  exact within

theorem AllAt.rearranged (all : AllAt first last holds before) (rearranged : Rearranged first last before after) :
    AllAt first last holds after := by
  intro i x low high found
  obtain ⟨j, lowJ, highJ, there⟩ := rearranged.inside i x low high found
  exact all j x lowJ highJ there

/-- Of a range beside the one that is rearranged. -/
theorem AllAt.beside {first' last' : Int} (all : AllAt first last holds before)
    (rearranged : Rearranged first' last' before after) (apart : last < first' ∨ last' < first) :
    AllAt first last holds after := by
  intro i x low high found
  rw [rearranged.outside i (by omega)] at found
  exact all i x low high found

theorem Ascending.beside [LE α] {first' last' : Int} (ascending : Ascending first last before)
    (rearranged : Rearranged first' last' before after) (apart : last < first' ∨ last' < first) :
    Ascending first last after := by
  intro i j x y low ordered high foundX foundY
  rw [rearranged.outside _ (by omega)] at foundX foundY
  exact ascending i j x y low ordered high foundX foundY

/-! ## Swapping -/

/-- A swap succeeds inside the array, and does what its name says. -/
theorem swapAt_spec (within : Within arr first last) (lowI : first ≤ i) (highI : i ≤ last) (lowJ : first ≤ j)
    (highJ : j ≤ last) :
    ∃ after, swapAt arr i j = some after ∧ Rearranged first last arr after ∧
      readAt after i = readAt arr j ∧ readAt after j = readAt arr i ∧
      ∀ k, k ≠ i → k ≠ j → readAt after k = readAt arr k := by
  obtain ⟨zero, bound⟩ := within
  have insideI : 0 ≤ i ∧ i.toNat < arr.size := by omega
  have insideJ : 0 ≤ j ∧ j.toNat < arr.size := by omega
  have readI : readAt arr i = some arr[i.toNat] := by
    rw [readAt, if_pos insideI.1, Array.getElem?_eq_getElem insideI.2]
  have readJ : readAt arr j = some arr[j.toNat] := by
    rw [readAt, if_pos insideJ.1, Array.getElem?_eq_getElem insideJ.2]
  have swapped : swapAt arr i j = some (arr.swap i.toNat j.toNat insideI.2 insideJ.2) := by
    simp only [swapAt, readI, readJ, Option.bind_some, writeAt, dif_pos insideI]
    rw [dif_pos ⟨insideJ.1, by rw [Array.size_set]; exact insideJ.2⟩, Array.swap_def]
  -- every index after the swap
  have reads : ∀ k, readAt (arr.swap i.toNat j.toNat insideI.2 insideJ.2) k =
      if k = j then readAt arr i else if k = i then readAt arr j else readAt arr k := by
    intro k
    by_cases nonneg : 0 ≤ k
    · have sameJ : j.toNat = k.toNat ↔ k = j := by omega
      have sameI : i.toNat = k.toNat ↔ k = i := by omega
      rw [readI, readJ, readAt, if_pos nonneg, Array.getElem?_swap]
      simp only [sameJ, sameI, readAt, if_pos nonneg]
    · rw [if_neg (by omega), if_neg (by omega), readAt, if_neg nonneg, readAt, if_neg nonneg]
  refine ⟨_, swapped, ⟨Array.swap_perm _ _, fun k beyond => ?_, fun k x low high found => ?_⟩, ?_, ?_, ?_⟩
  · rw [reads, if_neg (by omega), if_neg (by omega)]
  · rw [reads] at found
    split at found
    · exact ⟨i, lowI, highI, found⟩
    split at found
    · exact ⟨j, lowJ, highJ, found⟩
    · exact ⟨k, low, high, found⟩
  · rw [reads]
    split
    · rename_i same
      rw [same]
    · rw [if_pos rfl]
  · rw [reads, if_pos rfl]
  · intro k notI notJ
    rw [reads, if_neg notJ, if_neg notI]

/-! ## Ascending ranges -/

/-- One index, one element. -/
theorem le_of_same [Preorder α] {x y : α} (same : i = j) (foundX : readAt arr i = some x)
    (foundY : readAt arr j = some y) : x ≤ y := by
  rw [same, foundY, Option.some.injEq] at foundX
  rw [foundX]

theorem ascending_of_le [Preorder α] (short : last ≤ first) : Ascending first last arr := by
  intro i j x y low ordered high foundX foundY
  exact le_of_same (by omega) foundX foundY

/-- Two ranges side by side, with the elements of the first at most some element and those of the
second at least it. -/
theorem Ascending.join [Preorder α] {middle : Int} {pivot : α} (left : Ascending first (middle - 1) arr)
    (right : Ascending middle last arr) (small : AllAt first (middle - 1) (· ≤ pivot) arr)
    (large : AllAt middle last (pivot ≤ ·) arr) : Ascending first last arr := by
  intro i j x y low ordered high foundX foundY
  by_cases leftJ : j ≤ middle - 1
  · exact left i j x y low ordered leftJ foundX foundY
  · by_cases leftI : i ≤ middle - 1
    · exact le_trans (small i x low leftI foundX) (large j y (by omega) high foundY)
    · exact right i j x y (by omega) ordered high foundX foundY

/-- The whole array. -/
theorem Ascending.pairwise [LE α] (ascending : Ascending 0 (arr.size - 1) arr) : arr.toList.Pairwise (· ≤ ·) := by
  rw [List.pairwise_iff_getElem]
  intro i j insideI insideJ less
  rw [Array.length_toList] at insideI insideJ
  refine ascending i j _ _ (Int.natCast_nonneg i) (by omega) (by omega) ?_ ?_
  · rw [readAt_natCast, Array.getElem?_eq_getElem insideI]
    rfl
  · rw [readAt_natCast, Array.getElem?_eq_getElem insideJ]
    rfl

end KernelLearning.CSemantics
