import KernelLearning.Sorting.ShellSort

/-!
# The groups of one gap

Two groups have no index in common, so sorting one keeps the order in the others.  Once
all groups are sorted the array is determined: in each of them the same elements ascend.
-/

namespace KernelLearning.Sorting

open CSemantics

variable {arr cur next result : Array Int} {start step : Int} {turns : Nat} {σ τ : Equiv.Perm Int} {sorted : Int → Prop}

/-- Elements were moved inside the classes modulo the gap, and some groups are sorted. -/
structure Grouped (arr : Array Int) (step : Int) (sorted : Int → Prop) (next : Array Int) (σ : Equiv.Perm Int) :
    Prop where
  moves : Moves σ arr next
  classes : ∀ k, σ k % step = k % step
  ascending : ∀ start, 0 ≤ start → start < step → sorted start → AscendingOn (InGroup step start) next

theorem Grouped.initial (arr : Array Int) (none : ∀ start, 0 ≤ start → start < step → ¬ sorted start) :
    Grouped arr step sorted arr (Equiv.refl Int) where
  moves := .refl arr
  classes _ := rfl
  ascending start low less inSorted := absurd inSorted (none start low less)

theorem Grouped.groupsort (grouped : Grouped arr step sorted cur σ) (low : 0 ≤ start) (less : start < step)
    (fits : SumsFit arr.size start step) (enough : arr.size < turns) :
    ∃ next τ, groupsort turns cur arr.size start step = some next ∧
      Grouped arr step (fun other => sorted other ∨ other = start) next τ := by
  have size := grouped.moves.size_eq
  rw [← size] at fits enough ⊢
  obtain ⟨next, τ, done, further, fixes, ascending⟩ := groupsort_spec low less fits enough
  refine ⟨next, τ.trans σ, done, grouped.moves.trans further, fun k => ?_, fun other lowO lessO inSorted => ?_⟩
  · rw [Equiv.trans_apply, grouped.classes]
    by_cases inside : InGroup step start k
    · rw [(fixes_keeps fixes inside).2, inside.2]
    · rw [fixes k inside]
  · by_cases here : other = start
    · rw [here]
      exact ascending
    · -- the other groups stay as they are
      intro a b x y inA inB ordered foundX foundY
      have apart : ∀ k, InGroup step other k → ¬ InGroup step start k :=
        fun k inO inS => here (inO.2.symm.trans inS.2)
      rw [further.reads, fixes a (apart a inA)] at foundX
      rw [further.reads, fixes b (apart b inB)] at foundY
      exact grouped.ascending other lowO lessO (inSorted.resolve_right here) a b x y inA inB ordered foundX foundY

/-- With all groups sorted the array is determined. -/
theorem Grouped.unique (positive : 0 < step) (all : ∀ start, 0 ≤ start → start < step → sorted start)
    (grouped : Grouped arr step sorted next σ) (grouped' : Grouped arr step sorted result τ) : result = next := by
  -- from one array over the first one to the other
  have between : Moves (τ.trans σ.symm) next result := by
    refine ⟨grouped'.moves.perm.trans grouped.moves.perm.symm, fun i => ?_⟩
    rw [Equiv.trans_apply, grouped.moves.reads, Equiv.apply_symm_apply, grouped'.moves.reads]
  have classes : ∀ k, (τ.trans σ.symm) k % step = k % step := by
    intro k
    rw [Equiv.trans_apply, ← grouped.classes, Equiv.apply_symm_apply, grouped'.classes]
  refine ext_readAt between.size_eq fun k => ?_
  have low : 0 ≤ k % step := Int.emod_nonneg k (by omega)
  have less : k % step < step := Int.emod_lt_of_pos k positive
  have inside : ∀ {after : Array Int}, AscendingOn (InGroup step (k % step)) after →
      AscendingOn (fun i => i % step = k % step) after :=
    fun ascends => ascends.mono fun i x same found => ⟨(within_of_readAt found).1, same⟩
  refine between.eq_of_ascending (fun i => ?_) (inside (grouped.ascending _ low less (all _ low less)))
    (inside (grouped'.ascending _ low less (all _ low less))) rfl
  rw [classes]

/-! ## In any order -/

/-- `groupsort` for these starts, one after the other. -/
def groupsorts (turns : Nat) (len step : Int) : List Int → Array Int → Option (Array Int)
  | [], arr => some arr
  | start :: starts, arr => (groupsort turns arr len start step).bind (groupsorts turns len step starts)

variable {order : List Int} {len : Int}

theorem Grouped.groupsorts (grouped : Grouped arr step sorted cur σ)
    (starts : ∀ start ∈ order, 0 ≤ start ∧ start < step ∧ SumsFit arr.size start step) (enough : arr.size < turns) :
    ∃ next τ, groupsorts turns arr.size step order cur = some next ∧
      Grouped arr step (fun other => sorted other ∨ other ∈ order) next τ := by
  induction order generalizing cur σ sorted with
  | nil =>
    refine ⟨cur, σ, rfl, grouped.moves, grouped.classes, fun other low less inSorted => ?_⟩
    exact grouped.ascending other low less (inSorted.resolve_right List.not_mem_nil)
  | cons start order inductionHypothesis =>
    obtain ⟨low, less, fits⟩ := starts start List.mem_cons_self
    obtain ⟨middle, τ, done, grouped'⟩ := grouped.groupsort low less fits enough
    obtain ⟨next, ρ, done', grouped''⟩ :=
      inductionHypothesis grouped' fun other member => starts other (List.mem_cons_of_mem start member)
    refine ⟨next, ρ, ?_, grouped''.moves, grouped''.classes, fun other lowO lessO inSorted => ?_⟩
    · rw [Sorting.groupsorts, done, Option.bind_some, done']
    · refine grouped''.ascending other lowO lessO ?_
      rw [List.mem_cons] at inSorted
      rwa [or_assoc]

theorem groupsorts_eq_none (member : start ∈ order) (fails : ∀ arr, groupsort turns arr len start step = none)
    (arr : Array Int) : groupsorts turns len step order arr = none := by
  induction order generalizing arr with
  | nil => exact absurd member List.not_mem_nil
  | cons first order inductionHypothesis =>
    rw [groupsorts]
    by_cases here : start = first
    · rw [← here, fails, Option.bind_none]
    · cases groupsort turns arr len first step with
      | none => rfl
      | some arr' => exact inductionHypothesis ((List.mem_cons.mp member).resolve_left here) arr'

def starts (step : Int) : List Int := (List.range step.toNat).map fun k : Nat => (k : Int)

theorem mem_starts : start ∈ starts step ↔ 0 ≤ start ∧ start < step := by
  rw [starts, List.mem_map]
  constructor
  · intro found
    obtain ⟨k, member, same⟩ := found
    rw [List.mem_range] at member
    omega
  · intro bounds
    exact ⟨start.toNat, List.mem_range.mpr (by omega), Int.toNat_of_nonneg bounds.1⟩

/-! ## What groupsort does -/

/-- The group ascends, its elements are the ones it had, and nothing else is touched. -/
structure GroupSorted (arr : Array Int) (start step : Int) (next : Array Int) : Prop where
  moved : ∃ σ, Moves σ arr next ∧ ∀ k, ¬ InGroup step start k → σ k = k
  outside : ∀ k, ¬ InGroup step start k → readAt next k = readAt arr k
  ascending : AscendingOn (InGroup step start) next

/-- `groupsort` ends, with the group sorted. -/
def SortsGroup (arr : Array Int) (start step : Int) : Prop :=
  ∃ turns next, groupsort turns arr arr.size start step = some next ∧ GroupSorted arr start step next

/-- Whatever the order of the starts is, `groupsort` for all of them ends with one and the same array. -/
def SortsInAnyOrder (arr : Array Int) (step : Int) : Prop :=
  ∃ result, ∀ order : List Int, order.Perm (starts step) →
    ∃ turns, groupsorts turns arr.size step order arr = some result

theorem not_sortsGroup (low : 0 ≤ start) (less : start < step) (unfit : ¬ SumsFit arr.size start step) :
    ¬ SortsGroup arr start step := by
  intro sorts
  obtain ⟨turns, next, done, _⟩ := sorts
  rw [groupsort_overflows low less unfit] at done
  cases done

theorem sortsGroup_iff (low : 0 ≤ start) (less : start < step) :
    SortsGroup arr start step ↔ SumsFit arr.size start step := by
  refine ⟨fun sorts => by_contra fun unfit => not_sortsGroup low less unfit sorts, fun fits => ?_⟩
  obtain ⟨next, σ, done, moves, fixes, ascending⟩ := groupsort_spec low less fits (Nat.lt_succ_self arr.size)
  exact ⟨_, next, done, ⟨σ, moves, fixes⟩, fun k outside => by rw [moves.reads, fixes k outside], ascending⟩

theorem sortsInAnyOrder_iff (positive : 0 < step) :
    SortsInAnyOrder arr step ↔ ∀ start, 0 ≤ start → start < step → SumsFit arr.size start step := by
  constructor
  · intro sorts start low less
    by_contra unfit
    obtain ⟨result, all⟩ := sorts
    obtain ⟨turns, done⟩ := all (starts step) (List.Perm.refl _)
    rw [groupsorts_eq_none (mem_starts.mpr ⟨low, less⟩) (fun _ => groupsort_overflows low less unfit)] at done
    cases done
  · intro fits
    have run : ∀ order : List Int, order.Perm (starts step) → ∃ next τ,
        groupsorts (arr.size + 1) arr.size step order arr = some next ∧ Grouped arr step (fun _ => True) next τ := by
      intro order permuted
      obtain ⟨next, τ, done, grouped⟩ :=
        (Grouped.initial arr fun _ _ _ => not_false : Grouped arr step (fun _ => False) arr _).groupsorts
          (fun start member => by
            obtain ⟨low, less⟩ := mem_starts.mp (permuted.subset member)
            exact ⟨low, less, fits start low less⟩)
          (Nat.lt_succ_self arr.size)
      refine ⟨next, τ, done, grouped.moves, grouped.classes, fun start low less _ => ?_⟩
      exact grouped.ascending start low less (.inr (permuted.symm.subset (mem_starts.mpr ⟨low, less⟩)))
    obtain ⟨result, σ, _, grouped⟩ := run (starts step) (List.Perm.refl _)
    refine ⟨result, fun order permuted => ?_⟩
    obtain ⟨next, τ, done, grouped'⟩ := run order permuted
    exact ⟨_, by rw [done, grouped.unique positive (fun _ _ _ => trivial) grouped']⟩

/-- A group is sorted exactly if none of its sums overflows, and the order of the groups does not matter
exactly if no sum of any group does. -/
theorem groupsort_sorts_iff (arr : Array Int) (positive : 0 < step) :
    (∀ start, 0 ≤ start → start < step → (SortsGroup arr start step ↔ SumsFit arr.size start step)) ∧
      (SortsInAnyOrder arr step ↔ ∀ start, 0 ≤ start → start < step → SumsFit arr.size start step) :=
  ⟨fun _ low less => sortsGroup_iff low less, sortsInAnyOrder_iff positive⟩

theorem groupsort_sorts_iff_two : SortsGroup #[4, 3, 2, 1] 1 2 ∧ SortsInAnyOrder #[4, 3, 2, 1] 2 := by
  have two : (0 : Int) < 2 := by decide
  have fits : ∀ start : Int, 0 ≤ start → start < 2 → SumsFit (#[4, 3, 2, 1] : Array Int).size start 2 := by
    intro start low less i inside reached
    have := inside.1
    change i < 4 ∨ i = start at reached
    rw [IsInt32]
    omega
  exact ⟨((groupsort_sorts_iff #[4, 3, 2, 1] two).1 1 (by decide) (by decide)).mpr (fits 1 (by decide) (by decide)),
    (groupsort_sorts_iff #[4, 3, 2, 1] two).2.mpr fits⟩

/-- Even in an empty array `start + step` can overflow. -/
theorem groupsort_fails_far : ¬ ∀ (arr : Array Int) (start step : Int), IsInt32 arr.size → IsInt32 step → 0 < step →
    0 ≤ start → start < step → SortsGroup arr start step := by
  intro always
  have unfit : ¬ SumsFit (#[] : Array Int).size 1 2147483647 := by
    intro fits
    have sum : IsInt32 (1 + 2147483647) := fits 1 ⟨by decide, by decide⟩ (.inr rfl)
    rw [IsInt32] at sum
    omega
  exact not_sortsGroup (by decide) (by decide) unfit
    (always #[] 1 2147483647 ⟨by decide, by decide⟩ ⟨by decide, by decide⟩ (by decide) (by decide) (by decide))

end KernelLearning.Sorting
