import Mathlib.Data.Int.Order.Basic
import KernelLearning.CSemantics.Arrays
import KernelLearning.CSemantics.Loops

/-!
# Segments of an array

A list that stands in an array from an index on.  Writing behind it makes it longer,
writing elsewhere leaves it alone, and an array whose elements outside a segment are
kept and whose segment is permuted is a permutation.
-/

namespace KernelLearning.CSemantics

variable {α : Type}

/-- The elements of the list stand in the array, the first of them at the index. -/
def Holds (arr : Array α) : Int → List α → Prop
  | _, [] => True
  | first, x :: xs => readAt arr first = some x ∧ Holds arr (first + 1) xs

/-- Nothing changes outside the range. -/
structure Kept (first last : Int) (before after : Array α) : Prop where
  size : after.size = before.size
  outside : ∀ i, i < first ∨ last < i → readAt after i = readAt before i

variable {arr before after : Array α} {first last i : Int} {x : α} {xs ys : List α}

/-! ## What is kept -/

theorem Kept.refl (first last : Int) (arr : Array α) : Kept first last arr arr where
  size := rfl
  outside _ _ := rfl

theorem Kept.trans {middle : Array α} (earlier : Kept first last before middle) (later : Kept first last middle after) :
    Kept first last before after where
  size := later.size.trans earlier.size
  outside i beyond := (later.outside i beyond).trans (earlier.outside i beyond)

theorem Kept.mono {first' last' : Int} (kept : Kept first' last' before after) (low : first ≤ first')
    (high : last' ≤ last) : Kept first last before after where
  size := kept.size
  outside i beyond := kept.outside i (by omega)

theorem Within.kept {first' last' : Int} (within : Within before first last) (kept : Kept first' last' before after) :
    Within after first last := by
  rw [Within, kept.size]
  exact within

/-! ## Writing -/

theorem readAt_eq_none (outside : i < 0 ∨ arr.size ≤ i) : readAt arr i = none := by
  rw [readAt]
  split
  · exact Array.getElem?_eq_none (by omega)
  · rfl

/-- An element that is there has an index of the array. -/
theorem within_of_readAt (found : readAt arr i = some x) : Within arr i i := by
  by_contra outside
  rw [readAt_eq_none (by rw [Within] at outside; omega)] at found
  cases found

/-- Writing succeeds inside the array and changes nothing else. -/
theorem writeAt_spec (within : Within arr first last) (i : Int) (x : α) (low : first ≤ i) (high : i ≤ last) :
    ∃ after, writeAt arr i x = some after ∧ readAt after i = some x ∧ Kept i i arr after := by
  obtain ⟨zero, bound⟩ := within
  have inside : 0 ≤ i ∧ i.toNat < arr.size := by omega
  refine ⟨arr.set i.toNat x inside.2, by rw [writeAt, dif_pos inside], ?_, Array.size_set _, fun k other => ?_⟩
  · rw [readAt, if_pos inside.1, Array.getElem?_set_self]
  · rw [readAt, readAt]
    split
    · rw [Array.getElem?_set_ne inside.2 (by omega)]
    · rfl

/-- What a write that succeeds has done. -/
theorem writeAt_done (done : writeAt arr i x = some after) :
    Within arr i i ∧ readAt after i = some x ∧ Kept i i arr after := by
  have within : Within arr i i := by
    by_contra outside
    rw [writeAt, dif_neg (by rw [Within] at outside; omega)] at done
    cases done
  obtain ⟨after', done', new, kept⟩ := writeAt_spec within i x (Int.le_refl i) (Int.le_refl i)
  rw [done, Option.some.injEq] at done'
  rw [done']
  exact ⟨within, new, kept⟩

/-! ## Segments -/

theorem holds_append : Holds arr first (xs ++ ys) ↔ Holds arr first xs ∧ Holds arr (first + xs.length) ys := by
  induction xs generalizing first with
  | nil => simp [Holds]
  | cons x xs inductionHypothesis =>
    have next : first + 1 + xs.length = first + (x :: xs).length := by
      rw [List.length_cons]
      omega
    rw [List.cons_append, Holds, inductionHypothesis, next, Holds, and_assoc]

/-- A segment depends only on the elements in it. -/
theorem Holds.congr (holds : Holds before first xs)
    (same : ∀ i, first ≤ i → i < first + xs.length → readAt after i = readAt before i) : Holds after first xs := by
  induction xs generalizing first with
  | nil => trivial
  | cons x xs inductionHypothesis =>
    rw [List.length_cons] at same
    refine ⟨?_, inductionHypothesis holds.2 fun i low high => same i (by omega) (by omega)⟩
    rw [same first (Int.le_refl first) (by omega)]
    exact holds.1

/-- Of one length, only one list stands there. -/
theorem Holds.unique (holds : Holds arr first xs) (holds' : Holds arr first ys) (length : xs.length = ys.length) :
    xs = ys := by
  induction xs generalizing first ys with
  | nil => exact (List.length_eq_zero_iff.mp length.symm).symm
  | cons x xs inductionHypothesis =>
    cases ys with
    | nil => cases length
    | cons y ys =>
      have head := holds.1.symm.trans holds'.1
      rw [Option.some.injEq] at head
      rw [head, inductionHypothesis holds.2 holds'.2 (Nat.succ.inj length)]

theorem Holds.readAt (holds : Holds arr first xs) {k : Nat} (inside : k < xs.length) :
    CSemantics.readAt arr (first + k) = some xs[k] := by
  induction xs generalizing first k with
  | nil => exact absurd inside (Nat.not_lt_zero k)
  | cons x xs inductionHypothesis =>
    cases k with
    | zero => simpa using holds.1
    | succ k =>
      have found := inductionHypothesis holds.2 (Nat.lt_of_succ_lt_succ inside)
      rw [show first + ((k + 1 : Nat) : Int) = first + 1 + k by omega, found]
      rfl

/-- What changes is beside the segment. -/
theorem Holds.beside {first' last' : Int} (holds : Holds before first xs) (kept : Kept first' last' before after)
    (apart : first + xs.length ≤ first' ∨ last' < first) : Holds after first xs :=
  holds.congr fun i low high => kept.outside i (by omega)

/-- A range of the array is a segment. -/
theorem exists_holds (within : Within arr first last) (count : Nat) (fits : first + count = last + 1) :
    ∃ xs : List α, xs.length = count ∧ Holds arr first xs := by
  induction count generalizing first with
  | zero => exact ⟨[], rfl, trivial⟩
  | succ count inductionHypothesis =>
    obtain ⟨x, found⟩ := readAt_of_within within (Int.le_refl first) (by omega)
    have rest : Within arr (first + 1) last := ⟨Int.le_trans within.1 (by omega), within.2⟩
    obtain ⟨xs, length, holds⟩ := inductionHypothesis rest (by omega)
    exact ⟨x :: xs, congrArg (· + 1) length, found, holds⟩

/-- The array is what stands before the segment, the segment, and what stands behind it. -/
theorem toList_of_holds (start : Nat) (holds : Holds arr start xs) (fits : start + xs.length ≤ arr.size) :
    arr.toList = arr.toList.take start ++ (xs ++ arr.toList.drop (start + xs.length)) := by
  have length : ((arr.toList.drop start).take xs.length).length = xs.length := by
    have total : arr.toList.length = arr.size := Array.length_toList
    rw [List.length_take, List.length_drop, total, Nat.min_eq_left (by omega)]
  have middle : (arr.toList.drop start).take xs.length = xs := by
    refine List.ext_getElem length fun k _ inside => ?_
    have found := holds.readAt inside
    rw [show (start : Int) + k = ((start + k : Nat) : Int) from rfl, readAt_natCast] at found
    rw [List.getElem_take, List.getElem_drop, Array.getElem_toList]
    exact (Array.getElem?_eq_some_iff.mp found).2
  -- what is from the segment on, split at its end
  have rest : arr.toList.drop start = xs ++ arr.toList.drop (start + xs.length) := by
    calc
      arr.toList.drop start = (arr.toList.drop start).take xs.length ++ (arr.toList.drop start).drop xs.length :=
        (List.take_append_drop _ _).symm
      _ = xs ++ arr.toList.drop (start + xs.length) := by rw [middle, List.drop_drop]
  calc
    arr.toList = arr.toList.take start ++ arr.toList.drop start := (List.take_append_drop _ _).symm
    _ = arr.toList.take start ++ (xs ++ arr.toList.drop (start + xs.length)) := by rw [rest]

/-- The segment is the whole array. -/
theorem toList_eq_of_holds (holds : Holds arr 0 xs) (length : xs.length = arr.size) : arr.toList = xs := by
  have total : arr.toList.length = arr.size := Array.length_toList
  rw [toList_of_holds 0 holds (by omega), List.take_zero, List.nil_append, List.drop_of_length_le (by omega),
    List.append_nil]

/-- What is before an index is kept. -/
theorem take_eq_of_kept {start : Nat} (kept : ∀ i : Int, i < start → readAt after i = readAt before i) :
    after.toList.take start = before.toList.take start := by
  refine List.ext_getElem? fun k => ?_
  rw [List.getElem?_take, List.getElem?_take]
  split
  · rename_i inside
    rw [Array.getElem?_toList, Array.getElem?_toList, ← readAt_natCast, ← readAt_natCast]
    exact kept k (Int.ofNat_lt.mpr inside)
  · rfl

/-- What is from an index on is kept. -/
theorem drop_eq_of_kept {stop : Nat} (kept : ∀ i : Int, stop ≤ i → readAt after i = readAt before i) :
    after.toList.drop stop = before.toList.drop stop := by
  refine List.ext_getElem? fun k => ?_
  rw [List.getElem?_drop, List.getElem?_drop, Array.getElem?_toList, Array.getElem?_toList, ← readAt_natCast,
    ← readAt_natCast]
  exact kept _ (by omega)

/-- The segment is permuted, and the other elements are kept. -/
theorem perm_of_holds (holdsBefore : Holds before first xs) (holdsAfter : Holds after first ys) (perm : ys.Perm xs)
    (within : Within before first last) (fits : first + xs.length = last + 1)
    (unchanged : Kept first last before after) : after.Perm before := by
  obtain ⟨nonneg, bound⟩ := within
  obtain ⟨start, rfl⟩ := Int.eq_ofNat_of_zero_le nonneg
  have length := perm.length_eq
  have size := unchanged.size
  have front : after.toList.take start = before.toList.take start :=
    take_eq_of_kept fun i low => unchanged.outside i (.inl low)
  have back : after.toList.drop (start + xs.length) = before.toList.drop (start + xs.length) :=
    drop_eq_of_kept fun i high => unchanged.outside i (.inr (by omega))
  rw [Array.perm_iff_toList_perm, toList_of_holds start holdsAfter (by omega),
    toList_of_holds start holdsBefore (by omega), length, front, back]
  exact (perm.append_right _).append_left _

/-! ## The end of an array -/

/-- A permutation that keeps the elements before an index permutes those from there on. -/
theorem drop_perm {start : Nat} (perm : after.Perm before)
    (kept : ∀ i : Int, i < start → readAt after i = readAt before i) :
    (after.toList.drop start).Perm (before.toList.drop start) := by
  have whole := Array.perm_iff_toList_perm.mp perm
  rw [← List.take_append_drop start after.toList, ← List.take_append_drop start before.toList,
    take_eq_of_kept kept] at whole
  exact (List.perm_append_left_iff _).mp whole

theorem Ascending.pairwise_drop [LE α] {start : Nat} (ascending : Ascending start (arr.size - 1) arr) :
    (arr.toList.drop start).Pairwise (· ≤ ·) := by
  have total : arr.toList.length = arr.size := Array.length_toList
  rw [List.pairwise_iff_getElem]
  intro i j insideI insideJ less
  rw [List.length_drop, total] at insideI insideJ
  have found : ∀ k (inside : k < (arr.toList.drop start).length),
      readAt arr ((start + k : Nat) : Int) = some (arr.toList.drop start)[k] := by
    intro k inside
    rw [List.length_drop, total] at inside
    rw [readAt_natCast, List.getElem_drop, Array.getElem_toList, Array.getElem?_eq_getElem (by omega)]
  exact ascending _ _ _ _ (by omega) (by omega) (by omega) (found i _) (found j _)

/-! ## Copying -/

/-- `memcpy(target + place, source + origin, count * sizeof(*target))`. -/
def memcpy (target : Array α) (place : Int) (source : Array α) (origin count : Int) : Option (Array α) :=
  forLoop 0 count (fun k target => (readAt source (origin + k)).bind fun x => writeAt target (place + k) x) target

/-- The segment stands in the target afterwards, and nothing else of it changes. -/
theorem memcpy_spec {source target : Array α} {place origin : Int} (holds : Holds source origin xs)
    (within : Within target place last) (fits : place + xs.length ≤ last + 1) :
    ∃ after, memcpy target place source origin xs.length = some after ∧ Holds after place xs ∧
      Kept place (place + xs.length - 1) target after := by
  -- what is copied so far stands in the target
  obtain ⟨after, done, copied, kept⟩ := forLoop_spec
    (fun k arr => (readAt source (origin + k)).bind fun x => writeAt arr (place + k) x)
    (fun k arr => Holds arr place (xs.take k.toNat) ∧ Kept place (place + k - 1) target arr)
    (fun k arr low high invariant => by
      obtain ⟨copied, kept⟩ := invariant
      obtain ⟨count, rfl⟩ := Int.eq_ofNat_of_zero_le low
      have inside : count < xs.length := Int.ofNat_lt.mp high
      obtain ⟨next, written, new, others⟩ := writeAt_spec (within.kept kept) (place + count) xs[count] (by omega)
        (by omega)
      have length : (xs.take count).length = count := List.length_take_of_le (Nat.le_of_lt inside)
      refine ⟨next, ?_, ?_, (kept.mono ?_ ?_).trans (others.mono ?_ ?_)⟩
      · rw [holds.readAt inside, Option.bind_some]
        exact written
      · rw [show ((count : Int) + 1).toNat = count + 1 from rfl, List.take_succ_eq_append_getElem inside, holds_append,
          length]
        refine ⟨copied.beside others (.inl ?_), new, trivial⟩
        rw [Int.toNat_natCast, length]
      all_goals omega)
    target ⟨by rw [Int.toNat_zero, List.take_zero]; trivial, .refl _ _ _⟩ (Int.natCast_nonneg xs.length)
  rw [Int.toNat_natCast, List.take_length] at copied
  exact ⟨after, done, copied, kept⟩

end KernelLearning.CSemantics
