import Mathlib.Data.List.Perm.Basic
import Mathlib.Data.List.Nodup
import Mathlib.Logic.Equiv.Basic
import KernelLearning.CSemantics.Segments

/-!
# Moving the elements of an array

`Moves` says which index an element comes from.  An insertion holds an element back
and shifts others into its place, one after the other; with the element filled in
again, each shift is a swap.  A set of indices is ascending but for one place as long
as the element there has not yet come down to where it belongs.
-/

namespace KernelLearning.CSemantics

variable {α : Type}

/-- What stands at an index came from the index that the permutation gives. -/
structure Moves (σ : Equiv.Perm Int) (before after : Array α) : Prop where
  perm : after.Perm before
  reads : ∀ i, readAt after i = readAt before (σ i)

/-- The elements at the indices of the set ascend. -/
def AscendingOn [LE α] (region : Int → Prop) (arr : Array α) : Prop :=
  ∀ i j x y, region i → region j → i ≤ j → readAt arr i = some x → readAt arr j = some y → x ≤ y

/-- The elements of the set ascend, but the one at the place can be smaller than those before it. -/
def AscendingBut [LE α] (region : Int → Prop) (place : Int) (arr : Array α) : Prop :=
  ∀ i j x y, region i → region j → i ≤ j → (j = place → i = place) → readAt arr i = some x →
    readAt arr j = some y → x ≤ y

variable {arr before after : Array α} {σ τ : Equiv.Perm Int} {first last i j place : Int} {x temp : α}
  {region : Int → Prop}

/-! ## Moving -/

theorem Moves.refl (arr : Array α) : Moves (Equiv.refl Int) arr arr where
  perm := .rfl
  reads _ := rfl

theorem Moves.trans {middle : Array α} (earlier : Moves σ before middle) (later : Moves τ middle after) :
    Moves (τ.trans σ) before after where
  perm := later.perm.trans earlier.perm
  reads i := (later.reads i).trans (earlier.reads (τ i))

theorem Moves.size_eq (moves : Moves σ before after) : after.size = before.size := moves.perm.size_eq

/-- Arrays of one size with the same elements. -/
theorem ext_readAt (size : after.size = before.size) (same : ∀ i, readAt after i = readAt before i) :
    after = before := by
  refine Array.ext size fun k insideA insideB => ?_
  have found := same k
  rw [readAt_natCast, readAt_natCast, Array.getElem?_eq_getElem insideA, Array.getElem?_eq_getElem insideB,
    Option.some.injEq] at found
  exact found

/-- A permutation that fixes what is outside a set keeps the set. -/
theorem fixes_keeps (fixes : ∀ i, ¬ region i → σ i = i) (inside : region i) : region (σ i) := by
  by_contra outside
  rw [σ.injective (fixes (σ i) outside)] at outside
  exact outside inside

/-! ## Shifting -/

/-- Writing back what is there. -/
theorem writeAt_same (found : readAt arr i = some x) : writeAt arr i x = some arr := by
  obtain ⟨after, done, new, kept⟩ := writeAt_spec (within_of_readAt found) i x (Int.le_refl i) (Int.le_refl i)
  rw [done, ext_readAt kept.size fun k => ?_]
  by_cases here : k = i
  · rw [here, new, found]
  · exact kept.outside k (by omega)

/-- `place` is where `temp` belongs as far as is known, and the array holds something else there.  An
element is shifted into the place; with `temp` filled in, this is a swap. -/
theorem shift_spec {whole : Array α} (filled : writeAt arr place temp = some whole) (found : readAt arr j = some x) :
    ∃ shifted next, writeAt arr place x = some shifted ∧ writeAt shifted j temp = some next ∧
      Moves (Equiv.swap j place) whole next := by
  obtain ⟨placeWithin, newWhole, keptWhole⟩ := writeAt_done filled
  have foundWithin := within_of_readAt found
  obtain ⟨shifted, doneShifted, newShifted, keptShifted⟩ :=
    writeAt_spec placeWithin place x (Int.le_refl _) (Int.le_refl _)
  obtain ⟨next, doneNext, newNext, keptNext⟩ :=
    writeAt_spec (foundWithin.kept keptShifted) j temp (Int.le_refl _) (Int.le_refl _)
  refine ⟨shifted, next, doneShifted, doneNext, ?_⟩
  -- every index of the array with the two exchanged
  have reads : ∀ k, readAt next k = readAt whole (Equiv.swap j place k) := by
    intro k
    by_cases atJ : k = j
    · rw [atJ, Equiv.swap_apply_left, newNext, newWhole]
    · rw [keptNext.outside k (by omega)]
      by_cases atPlace : k = place
      · rw [atPlace, Equiv.swap_apply_right, newShifted, keptWhole.outside j (by omega), found]
      · rw [Equiv.swap_apply_of_ne_of_ne atJ atPlace, keptShifted.outside k (by omega), keptWhole.outside k (by omega)]
  have both : Within whole (min j place) (max j place) := by
    have := placeWithin.1
    have := foundWithin.1
    have size := keptWhole.size
    have := placeWithin.2
    have := foundWithin.2
    rw [Within, size]
    omega
  obtain ⟨swapped, _, moved, nowJ, nowPlace, others⟩ := swapAt_spec both (Int.min_le_left j place)
    (Int.le_max_left j place) (Int.min_le_right j place) (Int.le_max_right j place)
  have same : next = swapped := by
    refine ext_readAt ?_ fun k => ?_
    · rw [keptNext.size, keptShifted.size, moved.size_eq, keptWhole.size]
    · rw [reads]
      by_cases atJ : k = j
      · rw [atJ, Equiv.swap_apply_left, nowJ]
      · by_cases atPlace : k = place
        · rw [atPlace, Equiv.swap_apply_right, nowPlace]
        · rw [Equiv.swap_apply_of_ne_of_ne atJ atPlace, others k atJ atPlace]
  exact ⟨by rw [same]; exact moved.perm, reads⟩

/-- An element of the set is held back from its place in the second array, and stands there in the third: of
the first array only elements of the set are moved, and none before the place. -/
structure Held (region : Int → Prop) (before : Array α) (place : Int) (temp : α) (holed whole : Array α)
    (σ : Equiv.Perm Int) : Prop where
  filled : writeAt holed place temp = some whole
  moves : Moves σ before whole
  fixes : ∀ k, ¬ region k → σ k = k
  below : ∀ k, k < place → σ k = k
  inside : region place

theorem Held.initial (inside : region i) (found : readAt arr i = some temp) :
    Held region arr i temp arr arr (Equiv.refl Int) where
  filled := writeAt_same found
  moves := .refl arr
  fixes _ _ := rfl
  below _ _ := rfl
  inside := inside

/-- The held element is in the filled array, which is otherwise the other one. -/
theorem Held.found {holed whole : Array α} (held : Held region before place temp holed whole σ) :
    readAt whole place = some temp ∧ ∀ k, k ≠ place → readAt whole k = readAt holed k := by
  obtain ⟨_, new, kept⟩ := writeAt_done held.filled
  exact ⟨new, fun k other => kept.outside k (by omega)⟩

/-- An element of the set before the place is shifted into it. -/
theorem Held.shift {holed whole : Array α} (held : Held region before place temp holed whole σ) (inJ : region j)
    (less : j < place) (found : readAt holed j = some x) :
    ∃ shifted next, writeAt holed place x = some shifted ∧ Moves (Equiv.swap j place) whole next ∧
      Held region before j temp shifted next ((Equiv.swap j place).trans σ) := by
  obtain ⟨shifted, next, written, filled, moves⟩ := shift_spec held.filled found
  refine ⟨shifted, next, written, moves, filled, held.moves.trans moves, fun k outside => ?_, fun k early => ?_, inJ⟩
  · have notJ : k ≠ j := fun same => outside (by rw [same]; exact inJ)
    have notPlace : k ≠ place := fun same => outside (by rw [same]; exact held.inside)
    rw [Equiv.trans_apply, Equiv.swap_apply_of_ne_of_ne notJ notPlace]
    exact held.fixes k outside
  · rw [Equiv.trans_apply, Equiv.swap_apply_of_ne_of_ne (by omega) (by omega)]
    exact held.below k (by omega)

/-! ## Inserting -/

section Order

variable [Preorder α]

/-- The element behind an ascending set. -/
theorem AscendingOn.but (ascending : AscendingOn (fun i => region i ∧ i < place) arr) :
    AscendingBut (fun i => region i ∧ i ≤ place) place arr := by
  intro i j x y inI inJ ordered first foundX foundY
  by_cases here : j = place
  · exact le_of_same ((first here).trans here.symm) foundX foundY
  · exact ascending i j x y ⟨inI.1, by omega⟩ ⟨inJ.1, by omega⟩ ordered foundX foundY

/-- A larger element before the place is shifted into it. -/
theorem AscendingBut.shift {whole next : Array α} (but : AscendingBut region place whole)
    (moves : Moves (Equiv.swap j place) whole next) (before : j < place) (inJ : region j) (inPlace : region place)
    (neighbours : ∀ i, region i → i < place → i ≤ j) (foundX : readAt whole j = some x)
    (foundTemp : readAt whole place = some temp) (larger : temp ≤ x) : AscendingBut region j next := by
  intro a b y z inA inB ordered firstB foundY foundZ
  rw [moves.reads] at foundY foundZ
  by_cases atPlace : b = place
  · -- the larger element is there now
    rw [atPlace, Equiv.swap_apply_right, foundX, Option.some.injEq] at foundZ
    rw [← foundZ]
    by_cases aPlace : a = place
    · rw [aPlace, Equiv.swap_apply_right, foundX, Option.some.injEq] at foundY
      rw [foundY]
    · by_cases aJ : a = j
      · rw [aJ, Equiv.swap_apply_left, foundTemp, Option.some.injEq] at foundY
        rw [← foundY]
        exact larger
      · rw [Equiv.swap_apply_of_ne_of_ne aJ aPlace] at foundY
        exact but a j y x inA inJ (neighbours a inA (by omega)) (by omega) foundY foundX
  · by_cases bJ : b = j
    · rw [bJ, Equiv.swap_apply_left] at foundZ
      rw [firstB bJ, Equiv.swap_apply_left, foundZ, Option.some.injEq] at foundY
      rw [foundY]
    · rw [Equiv.swap_apply_of_ne_of_ne bJ atPlace] at foundZ
      by_cases aPlace : a = place
      · rw [aPlace, Equiv.swap_apply_right] at foundY
        exact but j b y z inJ inB (by omega) (by omega) foundY foundZ
      · by_cases aJ : a = j
        · -- behind the place, the held element is a lower bound
          rw [aJ, Equiv.swap_apply_left] at foundY
          have behind : place ≤ b := by
            by_contra early
            have := neighbours b inB (by omega)
            omega
          exact but place b y z inPlace inB behind (fun _ => rfl) foundY foundZ
        · rw [Equiv.swap_apply_of_ne_of_ne aJ aPlace] at foundY
          exact but a b y z inA inB ordered (fun here => absurd here atPlace) foundY foundZ

/-- The place is where the element belongs when the one before it is at most it, or there is none. -/
theorem AscendingBut.done (but : AscendingBut region place arr)
    (settled : ∀ i x y, region i → i < place → readAt arr i = some x → readAt arr place = some y → x ≤ y) :
    AscendingOn region arr := by
  intro i j x y inI inJ ordered foundX foundY
  by_cases here : j = place
  · by_cases same : i = place
    · exact le_of_same (same.trans here.symm) foundX foundY
    · rw [here] at foundY ordered
      exact settled i x y inI (by omega) foundX foundY
  · exact but i j x y inI inJ ordered (fun there => absurd there here) foundX foundY

theorem AscendingOn.mono {region' : Int → Prop} (ascending : AscendingOn region arr)
    (part : ∀ i x, region' i → readAt arr i = some x → region i) : AscendingOn region' arr := by
  intro i j x y inI inJ ordered foundX foundY
  exact ascending i j x y (part i x inI foundX) (part j y inJ foundY) ordered foundX foundY

/-- A set that has all indices of the array. -/
theorem AscendingOn.pairwise (ascending : AscendingOn region arr) (all : ∀ i x, readAt arr i = some x → region i) :
    arr.toList.Pairwise (· ≤ ·) :=
  Ascending.pairwise fun i j x y _ ordered _ foundX foundY =>
    ascending i j x y (all i x foundX) (all j y foundY) ordered foundX foundY

end Order

/-! ## One ascending order -/

/-- The indices of the set in an array of the size, in ascending order. -/
def indicesIn (region : Int → Prop) [DecidablePred region] (size : Nat) : List Int :=
  ((List.range size).map fun k : Nat => (k : Int)).filter region

section Indices

variable [DecidablePred region] {size : Nat}

theorem mem_indicesIn : i ∈ indicesIn region size ↔ (0 ≤ i ∧ i < size) ∧ region i := by
  rw [indicesIn, List.mem_filter, List.mem_map, decide_eq_true_eq]
  refine and_congr_left fun _ => ⟨fun found => ?_, fun between => ⟨i.toNat, ?_, Int.toNat_of_nonneg between.1⟩⟩
  · obtain ⟨k, member, same⟩ := found
    rw [List.mem_range] at member
    omega
  · rw [List.mem_range]
    omega

theorem indicesIn_pairwise : (indicesIn region size).Pairwise (· < ·) := by
  refine List.Pairwise.filter _ (List.pairwise_map.mpr ?_)
  exact List.pairwise_lt_range.imp fun less => Int.ofNat_lt.mpr less

/-- A permutation that keeps the set and the inside of the array only reorders the indices. -/
theorem map_indicesIn_perm (moves : Moves σ before after) (keeps : ∀ k, region (σ k) ↔ region k) :
    ((indicesIn region after.size).map σ).Perm (indicesIn region after.size) := by
  have size := moves.size_eq
  -- an index is inside the array as long as there is something to read
  have inside : ∀ k, (0 ≤ σ k ∧ σ k < after.size) ↔ 0 ≤ k ∧ k < after.size := by
    intro k
    constructor
    · intro bounds
      obtain ⟨x, found⟩ : ∃ x, readAt before (σ k) = some x := exists_readAt bounds.1 (by omega)
      rw [← moves.reads] at found
      exact within_of_readAt found
    · intro bounds
      obtain ⟨x, found⟩ : ∃ x, readAt after k = some x := exists_readAt bounds.1 bounds.2
      rw [moves.reads] at found
      have within := within_of_readAt found
      exact ⟨within.1, by have := within.2; omega⟩
  have distinct : (indicesIn region after.size).Nodup := indicesIn_pairwise.imp fun less => Int.ne_of_lt less
  refine (List.perm_ext_iff_of_nodup (distinct.map σ.injective) distinct).mpr fun k => ?_
  rw [List.mem_map]
  constructor
  · intro image
    obtain ⟨i, member, same⟩ := image
    obtain ⟨bounds, inRegion⟩ := mem_indicesIn.mp member
    rw [← same]
    exact mem_indicesIn.mpr ⟨(inside i).mpr bounds, (keeps i).mpr inRegion⟩
  · intro member
    obtain ⟨bounds, inRegion⟩ := mem_indicesIn.mp member
    refine ⟨σ.symm k, mem_indicesIn.mpr ⟨(inside _).mp ?_, (keeps _).mp ?_⟩, σ.apply_symm_apply k⟩
    · rwa [σ.apply_symm_apply]
    · rwa [σ.apply_symm_apply]

end Indices

/-- Moved inside a set, its elements can ascend in one way only. -/
theorem Moves.eq_of_ascending [PartialOrder α] (moves : Moves σ before after) (keeps : ∀ k, region (σ k) ↔ region k)
    (ascending : AscendingOn region before) (ascending' : AscendingOn region after) (inside : region i) :
    readAt after i = readAt before i := by
  classical
  have size := moves.size_eq
  by_cases bounds : 0 ≤ i ∧ i < after.size
  · have ordered : ∀ arr : Array α, AscendingOn region arr → ((indicesIn region after.size).map (readAt arr)).Pairwise
        fun u v => ∀ x y, u = some x → v = some y → x ≤ y := by
      intro arr ascends
      refine List.pairwise_map.mpr (indicesIn_pairwise.imp_of_mem fun memberI memberJ less x y foundX foundY => ?_)
      exact ascends _ _ x y (mem_indicesIn.mp memberI).2 (mem_indicesIn.mp memberJ).2 (Int.le_of_lt less) foundX foundY
    have reordered : ((indicesIn region after.size).map (readAt after)).Perm
        ((indicesIn region after.size).map (readAt before)) := by
      have reads : readAt after = readAt before ∘ σ := funext moves.reads
      rw [reads, ← List.map_map]
      exact (map_indicesIn_perm moves keeps).map _
    have same : (indicesIn region after.size).map (readAt after) =
        (indicesIn region after.size).map (readAt before) := by
      refine reordered.eq_of_pairwise (fun u v memberU memberV less greater => ?_) (ordered after ascending')
        (ordered before ascending)
      obtain ⟨k, memberK, foundU⟩ := List.mem_map.mp memberU
      obtain ⟨l, memberL, foundV⟩ := List.mem_map.mp memberV
      obtain ⟨boundsK, _⟩ := mem_indicesIn.mp memberK
      obtain ⟨boundsL, _⟩ := mem_indicesIn.mp memberL
      obtain ⟨x, foundX⟩ : ∃ x, readAt after k = some x := exists_readAt boundsK.1 boundsK.2
      obtain ⟨y, foundY⟩ : ∃ y, readAt before l = some y := exists_readAt boundsL.1 (by omega)
      rw [← foundU, ← foundV, foundX, foundY] at less greater ⊢
      rw [le_antisymm (less x y rfl rfl) (greater y x rfl rfl)]
    exact List.map_inj_left.mp same i (mem_indicesIn.mpr ⟨bounds, inside⟩)
  · have outside : ∀ arr : Array α, arr.size = after.size → readAt arr i = none := by
      intro arr sameSize
      cases found : readAt arr i with
      | none => rfl
      | some x =>
        have within := within_of_readAt found
        rw [Within, sameSize] at within
        exact absurd within bounds
    rw [outside after rfl, outside before size.symm]

end KernelLearning.CSemantics
