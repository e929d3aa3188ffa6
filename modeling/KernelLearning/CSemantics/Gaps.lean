import Mathlib.Data.Finset.Card
import Mathlib.Data.Int.Order.Basic
import KernelLearning.CSemantics.Reordering

/-!
# Order at a gap

An array is sorted at a gap when each element is at most the one that many indices
further.  Sorting the classes modulo another number keeps this: if an element came
to stand before a smaller one, the elements up to the smaller one that are at most
it would fit injectively into the places before it.
-/

namespace KernelLearning.CSemantics

variable {α : Type}

/-- Each element is at most the one `gap` indices further. -/
def GapSorted [LE α] (gap : Int) (arr : Array α) : Prop :=
  ∀ i x y, readAt arr i = some x → readAt arr (i + gap) = some y → x ≤ y

/-- In each class of indices modulo `step` the elements ascend. -/
def ClassesAscend [LE α] (step : Int) (arr : Array α) : Prop :=
  ∀ i j x y, i % step = j % step → i ≤ j → readAt arr i = some x → readAt arr j = some y → x ≤ y

variable {before after : Array α} {σ : Equiv.Perm Int} {gap step i q : Int}

theorem ClassesAscend.gapSorted [LE α] (ascend : ClassesAscend step after) (nonneg : 0 ≤ step) :
    GapSorted step after := by
  intro i x y foundX foundY
  exact ascend i (i + step) x y (Int.add_emod_right i step).symm (by omega) foundX foundY

/-- At the gap one the whole array is sorted. -/
theorem GapSorted.pairwise [Preorder α] (sorted : GapSorted 1 after) : after.toList.Pairwise (· ≤ ·) := by
  -- induction on the distance of the two indices
  have further : ∀ (distance : Nat) (i : Int) (x y : α), readAt after i = some x →
      readAt after (i + distance) = some y → x ≤ y := by
    intro distance
    induction distance with
    | zero =>
      intro i x y foundX foundY
      exact le_of_same (Int.add_zero i).symm foundX foundY
    | succ distance inductionHypothesis =>
      intro i x y foundX foundY
      have low := (within_of_readAt foundX).1
      have high := (within_of_readAt foundY).2
      obtain ⟨z, foundZ⟩ : ∃ z, readAt after (i + distance) = some z := exists_readAt (by omega) (by omega)
      rw [Int.natCast_succ, ← Int.add_assoc] at foundY
      exact le_trans (inductionHypothesis i x z foundX foundZ) (sorted _ z y foundZ foundY)
  refine Ascending.pairwise fun i j x y _ ordered _ foundX foundY => further (j - i).toNat i x y foundX ?_
  rw [show i + (j - i).toNat = j by omega]
  exact foundY

/-- The indices up to `last` in its class. -/
def classUpTo (step last : Int) : Finset Int :=
  ((Finset.range (last + 1).toNat).image fun k : Nat => (k : Int)).filter fun p => p % step = last % step

theorem mem_classUpTo {last p : Int} : p ∈ classUpTo step last ↔ (0 ≤ p ∧ p ≤ last) ∧ p % step = last % step := by
  rw [classUpTo, Finset.mem_filter, Finset.mem_image]
  refine and_congr_left fun _ => ⟨fun found => ?_, fun between => ⟨p.toNat, ?_, Int.toNat_of_nonneg between.1⟩⟩
  · obtain ⟨k, member, same⟩ := found
    rw [Finset.mem_range] at member
    omega
  · rw [Finset.mem_range]
    omega

/-- Where the element at `p` came from, if that is below the gap; else the place, one gap further, of
the element that was one gap before it. -/
def partner (σ : Equiv.Perm Int) (gap p : Int) : Int := if σ p < gap then σ p else σ.symm (σ p - gap) + gap

/-- Different indices have different partners, where the element one gap before has a place at all. -/
theorem partner_injective {p p' : Int} (same : partner σ gap p = partner σ gap p')
    (nonneg : gap ≤ σ p → 0 ≤ σ.symm (σ p - gap)) (nonneg' : gap ≤ σ p' → 0 ≤ σ.symm (σ p' - gap)) : p = p' := by
  rw [partner, partner] at same
  split at same
  · split at same
    · exact σ.injective same
    · have := nonneg' (by omega)
      omega
  · split at same
    · have := nonneg (by omega)
      omega
    · have shifted : σ.symm (σ p - gap) = σ.symm (σ p' - gap) := by omega
      have sources := σ.symm.injective shifted
      exact σ.injective (by omega)

/-- Sorting the classes modulo `step` keeps the order at any gap. -/
theorem GapSorted.of_classes [LinearOrder α] (sorted : GapSorted gap before) (moves : Moves σ before after)
    (classes : ∀ k, σ k % step = k % step) (ascend : ClassesAscend step after) (nonneg : 0 ≤ gap) :
    GapSorted gap after := by
  intro q u v foundU foundV
  by_contra greater
  have lowQ := (within_of_readAt foundU).1
  have inside := (within_of_readAt foundV).2
  -- the element one gap before the origin of one that is at most `v`: it stands before `q` now
  have earlier : ∀ p ∈ classUpTo step (q + gap), gap ≤ σ p →
      0 ≤ σ.symm (σ p - gap) ∧ σ.symm (σ p - gap) < q ∧ σ.symm (σ p - gap) % step = q % step := by
    intro p member far
    obtain ⟨⟨low, high⟩, same⟩ := mem_classUpTo.mp member
    obtain ⟨z, foundZ⟩ : ∃ z, readAt after p = some z := exists_readAt low (by omega)
    have most : z ≤ v := ascend p (q + gap) z v same high foundZ foundV
    rw [moves.reads] at foundZ
    have upper := (within_of_readAt foundZ).2
    obtain ⟨w, foundW⟩ : ∃ w, readAt before (σ p - gap) = some w := exists_readAt (by omega) (by omega)
    have least : w ≤ z := sorted (σ p - gap) w z foundW (by rw [Int.sub_add_cancel]; exact foundZ)
    have here : readAt after (σ.symm (σ p - gap)) = some w := by
      rw [moves.reads, Equiv.apply_symm_apply, foundW]
    have class_ : σ.symm (σ p - gap) % step = q % step := by
      rw [← classes, Equiv.apply_symm_apply, Int.sub_emod, classes, same, ← Int.sub_emod, Int.add_sub_cancel]
    refine ⟨(within_of_readAt here).1, ?_, class_⟩
    by_contra behind
    have := ascend q (σ.symm (σ p - gap)) u w class_.symm (by omega) foundU here
    exact greater (this.trans (least.trans most))
  -- so the partners are in the class, before the last index of it
  have maps : ∀ p ∈ classUpTo step (q + gap), partner σ gap p ∈ (classUpTo step (q + gap)).erase (q + gap) := by
    intro p member
    rw [Finset.mem_erase, mem_classUpTo, partner]
    split
    · rename_i near
      obtain ⟨⟨low, high⟩, same⟩ := mem_classUpTo.mp member
      obtain ⟨z, foundZ⟩ : ∃ z, readAt after p = some z := exists_readAt low (by omega)
      rw [moves.reads] at foundZ
      exact ⟨by omega, ⟨(within_of_readAt foundZ).1, by omega⟩, by rw [classes, same]⟩
    · obtain ⟨low, less, class_⟩ := earlier p member (by omega)
      refine ⟨by omega, ⟨by omega, by omega⟩, ?_⟩
      rw [Int.add_emod, class_, ← Int.add_emod]
  have enough : (classUpTo step (q + gap)).card ≤ ((classUpTo step (q + gap)).erase (q + gap)).card :=
    Finset.card_le_card_of_injOn (partner σ gap) maps fun p member p' member' same =>
      partner_injective same (fun far => (earlier p member far).1) fun far => (earlier p' member' far).1
  have last : q + gap ∈ classUpTo step (q + gap) := mem_classUpTo.mpr ⟨⟨by omega, Int.le_refl _⟩, rfl⟩
  exact absurd (Finset.card_erase_lt_of_mem last) (Nat.not_lt.mpr enough)

end KernelLearning.CSemantics
