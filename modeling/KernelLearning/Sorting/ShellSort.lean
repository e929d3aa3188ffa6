import Mathlib.Data.Int.Order.Basic
import KernelLearning.CSemantics.Gaps
import KernelLearning.CSemantics.Word

/-!
# shellsort

A pass with a gap sorts, for each start below it, the elements at every gap-th index
from there on, by insertion.  The result is `none` if an index is outside the array,
if more turns are needed than given, or if `start + step` or `i += step` overflows;
the other sums and differences lie between `-step` and an index of the array.
-/

namespace KernelLearning.Sorting

open CSemantics

/-! ## The program -/

/-- The variables of the inner loop of `groupsort`. -/
structure Gap where
  arr : Array Int
  j : Int

/-- `j >= 0`, and the loop has not been left by `if(temp > arr[j]) break`. -/
def gapGoes (temp : Int) (g : Gap) : Option Bool :=
  if g.j ≥ 0 then (readAt g.arr g.j).map fun x => !decide (temp > x) else some false

/-- `arr[j+step] = arr[j]; j -= step`. -/
def shiftGap (step : Int) (g : Gap) : Option Gap :=
  (readAt g.arr g.j).bind fun x => (writeAt g.arr (g.j + step) x).map fun arr => ⟨arr, g.j - step⟩

/-- The body of the outer loop of `groupsort`. -/
def gapInsert (turns : Nat) (step i : Int) (arr : Array Int) : Option (Array Int) :=
  (readAt arr i).bind fun temp =>
    (whileLoop (gapGoes temp) (shiftGap step) turns ⟨arr, i - step⟩).bind fun g => writeAt g.arr (g.j + step) temp

/-- The variables of the outer loop of `groupsort`. -/
structure Group where
  arr : Array Int
  i : Int

/-- One turn and `i += step`. -/
def groupTurn (turns : Nat) (step : Int) (g : Group) : Option Group :=
  (gapInsert turns step g.i g.arr).bind fun arr => (addInt g.i step).map fun i => ⟨arr, i⟩

def groupsort (turns : Nat) (arr : Array Int) (len start step : Int) : Option (Array Int) :=
  (addInt start step).bind fun i =>
    (whileLoop (fun g : Group => some (decide (g.i < len))) (groupTurn turns step) turns ⟨arr, i⟩).map Group.arr

/-- `for(int i = 0; i < step; i++) groupsort(arr, len, i, step)`. -/
def shellPass (turns : Nat) (len step : Int) (arr : Array Int) : Option (Array Int) :=
  forLoop 0 step (fun i arr => groupsort turns arr len i step) arr

/-- The variables of the loop of `shellsort`. -/
structure Shell where
  arr : Array Int
  step : Int

/-- One pass and `step = step/2`. -/
def shellTurn (turns : Nat) (len : Int) (s : Shell) : Option Shell :=
  (shellPass turns len s.step s.arr).map fun arr => ⟨arr, s.step.tdiv 2⟩

/-- The loop from a state on. -/
def shellLoop (turns : Nat) (len : Int) : Nat → Shell → Option Shell :=
  whileLoop (fun s => some (decide (s.step > 0))) (shellTurn turns len)

def shellsort (turns : Nat) (arr : Array Int) (len : Int) : Option (Array Int) :=
  (shellLoop turns len turns ⟨arr, len.tdiv 2⟩).map Shell.arr

/-! ## Inserting one element -/

variable {arr next : Array Int} {start step len i temp : Int} {turns : Nat} {σ : Equiv.Perm Int}

/-- The indices of the group, up to the one of the element that is inserted. -/
def InGroup (step start k : Int) : Prop := 0 ≤ k ∧ k % step = start

theorem InGroup.sub_step {k : Int} (inside : InGroup step start k) (room : step ≤ k) : InGroup step start (k - step) :=
  ⟨by omega, by rw [Int.sub_emod_right]; exact inside.2⟩

/-- Two indices of the group are at least a step apart. -/
theorem InGroup.apart {k l : Int} (insideK : InGroup step start k) (insideL : InGroup step start l) (less : k < l) :
    k ≤ l - step := by
  have same : l % step = k % step := insideL.2.trans insideK.2.symm
  have divides : step ∣ l - k := Int.dvd_of_emod_eq_zero (Int.emod_eq_emod_iff_emod_sub_eq_zero.mp same)
  have := Int.le_of_dvd (by omega) divides
  omega

/-- The first index of the group. -/
theorem InGroup.eq_start {k : Int} (inside : InGroup step start k) (less : start < step) (early : k ≤ start) :
    k = start := by
  rw [← inside.2, Int.emod_eq_of_lt inside.1 (by omega)]

/-- `temp` is held back from the hole among the elements of the group up to `i`. -/
structure Gapped (arr : Array Int) (step start i temp : Int) (g : Gap) (whole : Array Int) (σ : Equiv.Perm Int) : Prop
    extends Held (InGroup step start) arr (g.j + step) temp g.arr whole σ where
  high : g.j + step ≤ i
  ordered : AscendingOn (fun k => InGroup step start k ∧ k < i) arr →
    AscendingBut (fun k => InGroup step start k ∧ k ≤ i) (g.j + step) whole

theorem Gapped.initial (inside : InGroup step start i) (found : readAt arr i = some temp) :
    Gapped arr step start i temp ⟨arr, i - step⟩ arr (Equiv.refl Int) := by
  have place : i - step + step = i := Int.sub_add_cancel i step
  refine ⟨?_, Int.le_of_eq place, fun ascending => ?_⟩
  · rw [place]
    exact .initial inside found
  · rw [place]
    exact ascending.but

/-- Before the loop stops the hole is not at the start of the group. -/
theorem Gapped.inside_before {g : Gap} {whole : Array Int} (gapped : Gapped arr step start i temp g whole σ)
    (nonneg : 0 ≤ g.j) : InGroup step start g.j := by
  have inside := gapped.inside.sub_step (by omega)
  rwa [Int.add_sub_cancel] at inside

theorem Gapped.turn {g : Gap} {whole : Array Int} (gapped : Gapped arr step start i temp g whole σ)
    (positive : 0 < step) (goes : gapGoes temp g = some true) :
    ∃ g' whole' σ', shiftGap step g = some g' ∧ Gapped arr step start i temp g' whole' σ' ∧ g'.j < g.j ∧ 0 ≤ g.j := by
  rw [gapGoes] at goes
  split at goes
  · rename_i nonneg
    obtain ⟨x, found, larger⟩ := Option.map_eq_some_iff.mp goes
    rw [Bool.not_eq_true', decide_eq_false_iff_not] at larger
    obtain ⟨atPlace, elsewhere⟩ := gapped.found
    have inJ := gapped.inside_before nonneg
    obtain ⟨shifted, whole', written, moves, held⟩ := gapped.toHeld.shift inJ (by omega) found
    -- the new hole is where the shifted element was
    have place : g.j - step + step = g.j := Int.sub_add_cancel g.j step
    have high := gapped.high
    refine ⟨⟨shifted, g.j - step⟩, whole', _, ?_, ⟨by rw [place]; exact held, ?_, fun ascending => ?_⟩,
      Int.sub_lt_self g.j positive, nonneg⟩
    · rw [shiftGap, found, Option.bind_some, written, Option.map_some]
    · rw [place]
      omega
    · rw [place]
      exact (gapped.ordered ascending).shift moves (by omega) ⟨inJ, by omega⟩ ⟨gapped.inside, high⟩
        (fun k inK less => by have := inK.1.apart gapped.inside less; omega) ((elsewhere _ (by omega)).trans found)
        atPlace (Int.not_lt.mp larger)
  · cases goes

/-- The element is inserted among those of its group before it. -/
theorem gapInsert_spec (positive : 0 < step) (inside : InGroup step start i) (found : readAt arr i = some temp)
    (enough : i.toNat < turns) :
    ∃ next σ, gapInsert turns step i arr = some next ∧ Moves σ arr next ∧ (∀ k, ¬ InGroup step start k → σ k = k) ∧
      (AscendingOn (fun k => InGroup step start k ∧ k < i) arr →
        AscendingOn (fun k => InGroup step start k ∧ k ≤ i) next) := by
  have size := (within_of_readAt found).2
  obtain ⟨g, done, ⟨whole, σ, gapped⟩, stops⟩ := whileLoop_spec (gapGoes temp) (shiftGap step)
    (fun g => ∃ whole σ, Gapped arr step start i temp g whole σ) (fun g => (g.j + step).toNat)
    (fun g invariant => by
      obtain ⟨whole, σ, gapped⟩ := invariant
      rw [gapGoes]
      split
      · rename_i nonneg
        have bound := (writeAt_done gapped.filled).1.2
        obtain ⟨x, here⟩ : ∃ x, readAt g.arr g.j = some x := exists_readAt nonneg (by omega)
        exact ⟨_, by rw [here, Option.map_some]⟩
      · exact ⟨false, rfl⟩)
    (fun g invariant goes => by
      obtain ⟨whole, σ, gapped⟩ := invariant
      obtain ⟨g', whole', σ', done, kept, less, nonneg⟩ := gapped.turn positive goes
      exact ⟨g', done, ⟨whole', σ', kept⟩, by omega⟩)
    ⟨arr, i - step⟩ ⟨arr, _, .initial inside found⟩ (show (i - step + step).toNat < turns by omega)
  refine ⟨whole, σ, ?_, gapped.moves, gapped.fixes, fun ascending => (gapped.ordered ascending).done ?_⟩
  · rw [gapInsert, found, Option.bind_some, done, Option.bind_some, gapped.filled]
  · -- the loop stopped before the group, or on a smaller element
    intro k x y inK less foundX foundY
    obtain ⟨atPlace, elsewhere⟩ := gapped.found
    rw [atPlace, Option.some.injEq] at foundY
    have before := inK.1.apart gapped.inside less
    have nonneg : 0 ≤ g.j := by
      have := inK.1.1
      omega
    rw [gapGoes, if_pos nonneg] at stops
    obtain ⟨z, foundZ, smaller⟩ := Option.map_eq_some_iff.mp stops
    rw [Bool.not_eq_false', decide_eq_true_eq] at smaller
    have high := gapped.high
    have foundWhole : readAt whole g.j = some z := (elsewhere _ (by omega)).trans foundZ
    have most : x ≤ z := gapped.ordered ascending k g.j x z inK ⟨gapped.inside_before nonneg, by omega⟩ (by omega)
      (by omega) foundX foundWhole
    rw [← foundY]
    exact Int.le_trans most (Int.le_of_lt smaller)

/-! ## One group -/

/-- No sum of the outer loop of `groupsort` overflows: neither `start + step`, nor `i + step` for an index `i`
of the group. -/
def SumsFit (len start step : Int) : Prop :=
  ∀ i, InGroup step start i → i < len ∨ i = start → IsInt32 (i + step)

/-- A group is sorted, and the other indices are left alone. -/
theorem groupsort_spec (low : 0 ≤ start) (less : start < step) (fits : SumsFit arr.size start step)
    (enough : arr.size < turns) :
    ∃ next σ, groupsort turns arr arr.size start step = some next ∧ Moves σ arr next ∧
      (∀ k, ¬ InGroup step start k → σ k = k) ∧ AscendingOn (InGroup step start) next := by
  have positive : 0 < step := by omega
  have inStart : InGroup step start start := ⟨low, Int.emod_eq_of_lt low less⟩
  have next : ∀ {i}, InGroup step start i → InGroup step start (i + step) := fun inside =>
    ⟨by have := inside.1; omega, by rw [Int.add_emod_right]; exact inside.2⟩
  have only : ∀ k, InGroup step start k ∧ k < start + step → k = start := by
    intro k inside
    have := inside.1.apart (next inStart) inside.2
    exact inside.1.eq_start less (by omega)
  rw [groupsort, addInt_of_isInt32 (fits start inStart (.inr rfl)), Option.bind_some]
  -- the elements of the group before `i` ascend
  obtain ⟨g, done, ⟨σ, moves, fixes, inside, ascending⟩, stops⟩ :=
    whileLoop_spec (fun g : Group => some (decide (g.i < arr.size))) (groupTurn turns step)
      (fun g => ∃ σ, Moves σ arr g.arr ∧ (∀ k, ¬ InGroup step start k → σ k = k) ∧ InGroup step start g.i ∧
        AscendingOn (fun k => InGroup step start k ∧ k < g.i) g.arr)
      (fun g => (arr.size - g.i).toNat) (fun _ _ => ⟨_, rfl⟩)
      (fun g invariant goes => by
        obtain ⟨σ, moves, fixes, inside, ascending⟩ := invariant
        have bound : g.i < arr.size := by simpa using goes
        obtain ⟨temp, found⟩ : ∃ temp, readAt g.arr g.i = some temp :=
          exists_readAt inside.1 (by rw [moves.size_eq]; exact bound)
        obtain ⟨after, τ, done, further, fixesToo, keeps⟩ :=
          gapInsert_spec positive inside found (by omega : g.i.toNat < turns)
        refine ⟨⟨after, g.i + step⟩, ?_, ⟨τ.trans σ, moves.trans further, fun k outside => ?_, next inside, ?_⟩,
          show (arr.size - (g.i + step)).toNat < (arr.size - g.i).toNat by omega⟩
        · rw [groupTurn, done, Option.bind_some, addInt_of_isInt32 (fits g.i inside (.inl bound)), Option.map_some]
        · rw [Equiv.trans_apply, fixesToo k outside, fixes k outside]
        · refine (keeps ascending).mono fun k _ inK _ => ⟨inK.1, ?_⟩
          have := inK.1.apart (next inside) inK.2
          omega)
      ⟨arr, start + step⟩
      ⟨Equiv.refl Int, .refl arr, fun _ _ => rfl, next inStart, fun i j x y inI inJ _ foundX foundY =>
        le_of_same ((only i inI).trans (only j inJ).symm) foundX foundY⟩
      (show (arr.size - (start + step)).toNat < turns by omega)
  refine ⟨g.arr, σ, by rw [done, Option.map_some], moves, fixes, ascending.mono fun k x inK found => ⟨inK, ?_⟩⟩
  have := (within_of_readAt found).2
  rw [moves.size_eq] at this
  simp only [Option.some.injEq, decide_eq_false_iff_not] at stops
  omega

/-- The loop comes to an index where `i += step` overflows. -/
theorem groupLoop_overflows (positive : 0 < step) (inside : InGroup step start i) (bound : i < len)
    (overflows : ¬ IsInt32 (i + step)) (g : Group) (inG : InGroup step start g.i) (before : g.i ≤ i) :
    whileLoop (fun g : Group => some (decide (g.i < len))) (groupTurn turns step) turns g = none := by
  have runs : ∀ left (g : Group), InGroup step start g.i → g.i ≤ i →
      whileLoop (fun g : Group => some (decide (g.i < len))) (groupTurn turns step) left g = none := by
    intro left
    induction left with
    | zero => exact fun _ _ _ => rfl
    | succ left inductionHypothesis =>
      intro g inG before
      have goes : decide (g.i < len) = true := decide_eq_true (by omega)
      simp only [whileLoop, goes, Option.bind_some, if_true, groupTurn]
      cases gapInsert turns step g.i g.arr with
      | none => rfl
      | some arr =>
        rw [Option.bind_some]
        -- the sum overflows here, or the loop goes on below the index
        by_cases here : g.i = i
        · rw [here, addInt_eq_none overflows]
          rfl
        · have room := inG.apart inside (by omega)
          have next : InGroup step start (g.i + step) :=
            ⟨by have := inG.1; omega, by rw [Int.add_emod_right]; exact inG.2⟩
          cases sum : addInt g.i step with
          | none => rfl
          | some k =>
            rw [Option.map_some, Option.bind_some, (addInt_eq_some_iff.mp sum).2]
            exact inductionHypothesis ⟨arr, g.i + step⟩ next (show g.i + step ≤ i by omega)
  exact runs turns g inG before

/-- A sum that overflows leaves `groupsort` without a result. -/
theorem groupsort_overflows (low : 0 ≤ start) (less : start < step) (unfit : ¬ SumsFit len start step) :
    groupsort turns arr len start step = none := by
  rw [SumsFit] at unfit
  push Not at unfit
  obtain ⟨i, inside, reached, overflows⟩ := unfit
  have inStart : InGroup step start start := ⟨low, Int.emod_eq_of_lt low less⟩
  have inNext : InGroup step start (start + step) := ⟨by omega, by rw [Int.add_emod_right]; exact inStart.2⟩
  rw [groupsort]
  by_cases first : i = start
  · -- `start + step` does
    rw [← first, addInt_eq_none overflows, Option.bind_none]
  · have bound : i < len := reached.resolve_right first
    have behind : start < i := by
      by_contra early
      exact first (inside.eq_start less (by omega))
    have room := inStart.apart inside behind
    cases sum : addInt start step with
    | none => rfl
    | some k =>
      rw [Option.bind_some, (addInt_eq_some_iff.mp sum).2]
      have from_ : start + step ≤ i := by omega
      rw [groupLoop_overflows (by omega) inside bound overflows ⟨arr, start + step⟩ inNext from_, Option.map_none]

end KernelLearning.Sorting
