import Mathlib.Algebra.Ring.Nat
import KernelLearning.Sorting.ShellGroups

/-!
# The passes of shellsort

As long as no sum overflows each pass sorts the classes of indices modulo its gap.
The last pass has the gap one and sorts the array; the order at the gaps of earlier
passes is kept by later ones.
-/

namespace KernelLearning.Sorting

open CSemantics

variable {arr : Array Int} {step len : Int} {turns : Nat}

/-! ## One pass -/

/-- The first sum that overflows is that of the last index and the gap. -/
theorem sumsFit_of_le {start : Int} (low : 0 ≤ start) (less : start < step) (short : step ≤ len)
    (fits : len + step ≤ 2 ^ 31) : SumsFit len start step := by
  intro i inside reached
  have := inside.1
  rw [IsInt32]
  omega

/-- A pass moves elements inside the classes of its gap, and sorts each class. -/
theorem shellPass_spec (positive : 0 < step) (short : step ≤ arr.size) (fits : arr.size + step ≤ 2 ^ 31)
    (enough : arr.size < turns) :
    ∃ next σ, shellPass turns arr.size step arr = some next ∧ Moves σ arr next ∧ (∀ k, σ k % step = k % step) ∧
      ClassesAscend step next := by
  -- the groups before the index are sorted
  obtain ⟨next, done, σ, grouped⟩ := forLoop_spec (fun i arr' => groupsort turns arr' arr.size i step)
    (fun i arr' => ∃ σ, Grouped arr step (· < i) arr' σ)
    (fun i arr' low high invariant => by
      obtain ⟨σ, grouped⟩ := invariant
      obtain ⟨next, τ, done, grouped'⟩ := grouped.groupsort low high (sumsFit_of_le low high short fits) enough
      refine ⟨next, done, τ, grouped'.moves, grouped'.classes, fun start lowS lessS before => ?_⟩
      exact grouped'.ascending start lowS lessS (by omega))
    arr ⟨_, .initial arr fun start low _ => Int.not_lt.mpr low⟩ (Int.le_of_lt positive)
  refine ⟨next, σ, done, grouped.moves, grouped.classes, fun i j x y same ordered foundX foundY => ?_⟩
  have lowI := (within_of_readAt foundX).1
  have low : 0 ≤ j % step := Int.emod_nonneg j (by omega)
  have less : j % step < step := Int.emod_lt_of_pos j positive
  exact grouped.ascending (j % step) low less less i j x y ⟨lowI, same⟩ ⟨by omega, rfl⟩ ordered foundX foundY

/-- The pass overflows at the last index of the array. -/
theorem shellPass_overflows (positive : 0 < step) (short : step ≤ len) (unfit : 2 ^ 31 < len + step)
    (arr : Array Int) : shellPass turns len step arr = none := by
  have low : 0 ≤ (len - 1) % step := Int.emod_nonneg _ (by omega)
  have high : (len - 1) % step < step := Int.emod_lt_of_pos _ positive
  refine forLoop_eq_none _ low high (fun arr => groupsort_overflows low high fun fits => ?_) arr
  have sum := fits (len - 1) ⟨by omega, rfl⟩ (.inl (by omega))
  rw [IsInt32] at sum
  omega

/-! ## All passes -/

/-- The gap of a pass, the passes counted from zero. -/
def gap (len k : Nat) : Nat := len / 2 ^ (k + 1)

theorem gap_succ (len k : Nat) : gap len (k + 1) = gap len k / 2 := by
  rw [gap, gap, Nat.pow_succ, Nat.div_div_eq_div_mul]

theorem gap_le (len k : Nat) : gap len k ≤ len / 2 := by
  induction k with
  | zero => exact Nat.le_refl _
  | succ k inductionHypothesis =>
    rw [gap_succ]
    exact Nat.le_trans (Nat.div_le_self _ 2) inductionHypothesis

/-- What holds after `k` passes: the array is sorted at each of their gaps. -/
structure Passed (arr : Array Int) (k : Nat) (s : Shell) : Prop where
  step : s.step = gap arr.size k
  positive : ∀ j, j < k → 0 < gap arr.size j
  perm : s.arr.Perm arr
  sorted : ∀ j, j < k → GapSorted (gap arr.size j) s.arr

theorem Passed.initial (arr : Array Int) : Passed arr 0 ⟨arr, (arr.size : Int).tdiv 2⟩ where
  step := rfl
  positive j before := absurd before (Nat.not_lt_zero j)
  perm := .rfl
  sorted j before := absurd before (Nat.not_lt_zero j)

/-- A pass sorts at its gap and keeps the order at the earlier ones. -/
theorem Passed.turn {k : Nat} {s : Shell} (passed : Passed arr k s) (positive : 0 < gap arr.size k)
    (fits : arr.size + arr.size / 2 ≤ 2 ^ 31) (enough : arr.size < turns) :
    ∃ next, shellTurn turns arr.size s = some next ∧ Passed arr (k + 1) next := by
  have small := gap_le arr.size k
  have size := passed.perm.size_eq
  have positiveGap : 0 < (gap arr.size k : Int) := Int.natCast_pos.mpr positive
  have enoughTurns : s.arr.size < turns := by omega
  obtain ⟨next, σ, done, moves, classes, ascend⟩ := shellPass_spec positiveGap (by omega) (by omega) enoughTurns
  rw [size, ← passed.step] at done
  refine ⟨⟨next, s.step.tdiv 2⟩, by rw [shellTurn, done, Option.map_some], ?_, fun j before => ?_,
    moves.perm.trans passed.perm, fun j before => ?_⟩
  · rw [passed.step, gap_succ]
    rfl
  · by_cases last : j = k
    · rw [last]
      exact positive
    · exact passed.positive j (by omega)
  · -- the gap of this pass, or an earlier one
    by_cases last : j = k
    · rw [last]
      exact ascend.gapSorted (Int.natCast_nonneg _)
    · exact (passed.sorted j (by omega)).of_classes moves classes ascend (Int.natCast_nonneg _)

/-- The state after so many passes. -/
def shellPasses (turns : Nat) (len : Int) : Nat → Shell → Option Shell
  | 0, s => some s
  | k + 1, s => (shellPasses turns len k s).bind (shellTurn turns len)

/-- With positive gaps the passes are done one after the other, and `shellsort` goes on from there. -/
theorem shellPasses_spec (fits : arr.size + arr.size / 2 ≤ 2 ^ 31) (enough : arr.size < turns) (k : Nat)
    (positive : ∀ j, j < k → 0 < gap arr.size j) :
    ∃ s, shellPasses turns arr.size k ⟨arr, (arr.size : Int).tdiv 2⟩ = some s ∧ Passed arr k s ∧
      ∀ left, shellLoop turns arr.size (left + k) ⟨arr, (arr.size : Int).tdiv 2⟩ =
        shellLoop turns arr.size left s := by
  induction k with
  | zero => exact ⟨_, rfl, .initial arr, fun _ => rfl⟩
  | succ k inductionHypothesis =>
    obtain ⟨s, done, passed, goesOn⟩ := inductionHypothesis fun j before => positive j (Nat.lt_succ_of_lt before)
    have here := positive k (Nat.lt_succ_self k)
    obtain ⟨next, turned, passedNext⟩ := passed.turn here fits enough
    refine ⟨next, by rw [shellPasses, done, Option.bind_some, turned], passedNext, fun left => ?_⟩
    have goes : decide (s.step > 0) = true := by
      rw [passed.step]
      exact decide_eq_true (Int.natCast_pos.mpr here)
    rw [show left + (k + 1) = left + 1 + k by omega, goesOn]
    simp only [shellLoop, whileLoop, Option.bind_some, goes, if_true, turned]

/-- The gaps before a positive one are positive. -/
theorem gap_positive {len k : Nat} (positive : 0 < gap len k) : ∀ j, j ≤ k → 0 < gap len j := by
  induction k with
  | zero =>
    intro j first
    rw [Nat.le_zero.mp first]
    exact positive
  | succ k inductionHypothesis =>
    intro j upTo
    by_cases last : j = k + 1
    · rw [last]
      exact positive
    · rw [gap_succ] at positive
      exact inductionHypothesis (by omega) j (by omega)

/-- The first pass overflows when the array is too long for its gap. -/
theorem firstPass_overflows (unfit : 2 ^ 31 < arr.size + arr.size / 2) :
    shellTurn turns arr.size ⟨arr, (arr.size : Int).tdiv 2⟩ = none := by
  have pass : shellPass turns arr.size (arr.size / 2 : Nat) arr = none :=
    shellPass_overflows (by omega) (by omega) (by omega) arr
  show (shellPass turns arr.size (arr.size / 2 : Nat) arr).map _ = none
  rw [pass, Option.map_none]

theorem shellsort_overflows (unfit : 2 ^ 31 < arr.size + arr.size / 2) : shellsort turns arr arr.size = none := by
  cases turns with
  | zero => rfl
  | succ turns =>
    have goes : decide ((arr.size : Int).tdiv 2 > 0) = true := decide_eq_true (by
      have half : (arr.size : Int).tdiv 2 = ((arr.size / 2 : Nat) : Int) := rfl
      omega)
    simp only [shellsort, shellLoop, whileLoop, Option.bind_some, goes, if_true, firstPass_overflows unfit,
      Option.bind_none, Option.map_none]

/-- The last gap is one, so the array is sorted when there is none left. -/
theorem Passed.pairwise {k : Nat} {s : Shell} (passed : Passed arr k s) (last : ¬ 0 < s.step) :
    s.arr.toList.Pairwise (· ≤ ·) := by
  rw [passed.step] at last
  refine GapSorted.pairwise ?_
  cases k with
  | zero =>
    -- an array of at most one element
    intro i x y foundX foundY
    have := (within_of_readAt foundX).1
    have := (within_of_readAt foundY).2
    have := passed.perm.size_eq
    have half : gap arr.size 0 = arr.size / 2 := rfl
    omega
  | succ k =>
    have positive := passed.positive k (Nat.lt_succ_self k)
    rw [gap_succ] at last
    have one : gap arr.size k = 1 := by omega
    have sorted := passed.sorted k (Nat.lt_succ_self k)
    rw [one] at sorted
    exact sorted

/-- `shellsort` ends with an ascending permutation, with no index outside the array, unless the array is so
long that its first pass overflows. -/
theorem shellsort_sorts_iff (arr : Array Int) :
    (∀ turns, arr.size < turns → ∃ sorted, shellsort turns arr arr.size = some sorted ∧ sorted.Perm arr ∧
      sorted.toList.Pairwise (· ≤ ·)) ↔ arr.size + arr.size / 2 ≤ 2 ^ 31 := by
  refine ⟨fun sorts => ?_, fun fits turns enough => ?_⟩
  · by_contra unfit
    obtain ⟨sorted, done, _⟩ := sorts (arr.size + 1) (Nat.lt_succ_self _)
    rw [shellsort_overflows (Nat.not_le.mp unfit)] at done
    cases done
  · -- the variant is the gap, which each pass halves
    obtain ⟨s, done, ⟨k, passed⟩, stops⟩ := whileLoop_spec (fun s : Shell => some (decide (s.step > 0)))
      (shellTurn turns arr.size) (fun s => ∃ k, Passed arr k s) (fun s => s.step.toNat) (fun _ _ => ⟨_, rfl⟩)
      (fun s invariant goes => by
        obtain ⟨k, passed⟩ := invariant
        have positive : 0 < gap arr.size k := by
          have := passed.step
          simp only [Option.some.injEq, decide_eq_true_eq] at goes
          omega
        obtain ⟨next, turned, passedNext⟩ := passed.turn positive fits enough
        refine ⟨next, turned, ⟨k + 1, passedNext⟩, ?_⟩
        rw [passedNext.step, passed.step, gap_succ]
        omega)
      ⟨arr, (arr.size : Int).tdiv 2⟩ ⟨0, .initial arr⟩
      (show ((arr.size / 2 : Nat) : Int).toNat < turns by omega)
    refine ⟨s.arr, by rw [shellsort, shellLoop, done, Option.map_some], passed.perm, passed.pairwise ?_⟩
    simpa using stops

/-- `i += step` overflows from the last index of this array on, in the first pass. -/
theorem shellsort_fails_long :
    ¬ ∃ turns sorted, shellsort turns (Array.replicate 1431655766 0) 1431655766 = some sorted := by
  intro ends
  obtain ⟨turns, sorted, done⟩ := ends
  have size : (Array.replicate 1431655766 (0 : Int)).size = 1431655766 := Array.size_replicate
  have none : shellsort turns (Array.replicate 1431655766 0) (Array.replicate 1431655766 (0 : Int)).size = none :=
    shellsort_overflows (by rw [size]; decide)
  rw [size] at none
  exact absurd (none.symm.trans done) (by simp)

/-- After each pass the array is sorted at the gaps of all passes so far, unless the array is so long that
the first pass overflows. -/
theorem shellsort_keeps_gaps_iff (arr : Array Int) :
    (∀ turns, arr.size < turns → ∀ k, 0 < gap arr.size k →
      ∃ s, shellPasses turns arr.size (k + 1) ⟨arr, (arr.size : Int).tdiv 2⟩ = some s ∧
        (∀ left, shellLoop turns arr.size (left + (k + 1)) ⟨arr, (arr.size : Int).tdiv 2⟩ =
          shellLoop turns arr.size left s) ∧
        ∀ j, j ≤ k → GapSorted (gap arr.size j) s.arr) ↔ arr.size + arr.size / 2 ≤ 2 ^ 31 := by
  refine ⟨fun sorts => ?_, fun fits turns enough k positive => ?_⟩
  · by_contra unfit
    have first : 0 < gap arr.size 0 := by
      have half : gap arr.size 0 = arr.size / 2 := rfl
      omega
    obtain ⟨s, done, _⟩ := sorts (arr.size + 1) (Nat.lt_succ_self _) 0 first
    rw [shellPasses, shellPasses, Option.bind_some, firstPass_overflows (Nat.not_le.mp unfit)] at done
    cases done
  · obtain ⟨s, done, passed, goesOn⟩ := shellPasses_spec fits enough (k + 1) fun j before =>
      gap_positive positive j (Nat.le_of_lt_succ before)
    exact ⟨s, done, goesOn, fun j upTo => passed.sorted j (Nat.lt_succ_of_le upTo)⟩

/-- There is no array after the first pass over this one. -/
theorem shellPasses_fails_long :
    ¬ ∃ turns s, shellPasses turns 1431655766 1 ⟨Array.replicate 1431655766 0, (1431655766 : Int).tdiv 2⟩ = some s := by
  intro ends
  obtain ⟨turns, s, done⟩ := ends
  have size : (Array.replicate 1431655766 (0 : Int)).size = 1431655766 := Array.size_replicate
  have none : shellTurn turns (Array.replicate 1431655766 (0 : Int)).size
      ⟨Array.replicate 1431655766 0, ((Array.replicate 1431655766 (0 : Int)).size : Int).tdiv 2⟩ = none :=
    firstPass_overflows (by rw [size]; decide)
  rw [size] at none
  rw [shellPasses, shellPasses, Option.bind_some] at done
  exact absurd (none.symm.trans done) (by simp)

end KernelLearning.Sorting
