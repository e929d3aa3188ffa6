import KernelLearning.Bytes.Overlay
import Mathlib.Data.Set.Operations

/-!
# Blocks of equal size

The blocks of a list, all of one size except that the list may end inside the
last one, and the list of fixed-size records that is stored record by record.
-/

namespace KernelLearning.Bytes

variable {α β : Type}

/-- The first `count` blocks of `size` elements. -/
def blocks (size count : Nat) (xs : List α) : List (List α) :=
  (List.range count).map fun index => window xs (index * size) size

@[simp] theorem length_blocks (size count : Nat) (xs : List α) : (blocks size count xs).length = count := by
  simp [blocks]

theorem blocks_succ (size count : Nat) (xs : List α) :
    blocks size (count + 1) xs = blocks size count xs ++ [window xs (count * size) size] := by
  simp [blocks, List.range_succ]

theorem window_zero (xs : List α) (count : Nat) : window xs 0 count = xs.take count := by
  simp [window]

theorem flatten_blocks (size count : Nat) (xs : List α) :
    (blocks size count xs).flatten = xs.take (count * size) := by
  induction count with
  | zero => simp [blocks]
  | succ count inductionHypothesis =>
    have next := window_append xs 0 (count * size) size
    rw [Nat.zero_add] at next
    rw [blocks_succ, List.flatten_append, inductionHypothesis, ← window_zero, List.flatten_singleton, next,
      window_zero, Nat.succ_mul]

/-- Blocks that cover two lists tell them apart. -/
theorem blocks_injective {size count : Nat} {xs ys : List α} (coverXs : xs.length ≤ count * size)
    (coverYs : ys.length ≤ count * size) (same : blocks size count xs = blocks size count ys) : xs = ys := by
  have flat := congrArg List.flatten same
  rw [flatten_blocks, flatten_blocks, List.take_of_length_le coverXs, List.take_of_length_le coverYs] at flat
  exact flat

/-- The number of blocks that cover `length` elements. -/
def blockCount (size length : Nat) : Nat :=
  if length % size = 0 then length / size else length / size + 1

theorem le_blockCount_mul {size : Nat} (positive : 0 < size) (length : Nat) :
    length ≤ blockCount size length * size := by
  have split := Nat.div_add_mod' length size
  have bound := Nat.mod_lt length positive
  simp only [blockCount]
  split
  case isTrue exact => omega
  case isFalse rest => rw [Nat.succ_mul]; omega

theorem blockCount_mul_lt {size : Nat} (positive : 0 < size) (length : Nat) :
    blockCount size length * size < length + size := by
  have split := Nat.div_add_mod' length size
  simp only [blockCount]
  split
  case isTrue exact => omega
  case isFalse rest =>
    rw [Nat.succ_mul]
    have nonzero : 0 < length % size := Nat.pos_of_ne_zero rest
    omega

/-! ## Records of equal size -/

/-- Records of one size that have the same bytes are the same records. -/
theorem flatten_injective {size : Nat} {xs ys : List (List α)} (positive : 0 < size)
    (sizeXs : ∀ x ∈ xs, x.length = size) (sizeYs : ∀ y ∈ ys, y.length = size)
    (same : xs.flatten = ys.flatten) : xs = ys := by
  induction xs generalizing ys with
  | nil =>
    cases ys with
    | nil => rfl
    | cons y ys =>
      have empty : y = [] := by
        simp only [List.flatten_nil, List.flatten_cons] at same
        exact (List.append_eq_nil_iff.mp same.symm).1
      have length := sizeYs y List.mem_cons_self
      simp [empty] at length
      omega
  | cons x xs inductionHypothesis =>
    have lengthX := sizeXs x List.mem_cons_self
    cases ys with
    | nil =>
      have empty : x = [] := by
        simp only [List.flatten_nil, List.flatten_cons] at same
        exact (List.append_eq_nil_iff.mp same).1
      simp [empty] at lengthX
      omega
    | cons y ys =>
      have lengthY := sizeYs y List.mem_cons_self
      simp only [List.flatten_cons] at same
      obtain ⟨head, tail⟩ := List.append_inj same (lengthX.trans lengthY.symm)
      rw [head, inductionHypothesis (fun x member => sizeXs x (List.mem_cons_of_mem _ member))
        (fun y member => sizeYs y (List.mem_cons_of_mem _ member)) tail]

theorem length_flatten_of_size {size : Nat} {xs : List (List α)} (sizeXs : ∀ x ∈ xs, x.length = size) :
    xs.flatten.length = xs.length * size := by
  induction xs with
  | nil => simp
  | cons x xs inductionHypothesis =>
    rw [List.flatten_cons, List.length_append, sizeXs x List.mem_cons_self,
      inductionHypothesis fun x member => sizeXs x (List.mem_cons_of_mem _ member), List.length_cons,
      Nat.succ_mul, Nat.add_comm]

/-- A function that tells the elements of two lists apart tells the lists apart. -/
theorem map_injective_on {f : α → β} {elements : Set α} (injective : Set.InjOn f elements) {xs ys : List α}
    (inXs : ∀ x ∈ xs, x ∈ elements) (inYs : ∀ y ∈ ys, y ∈ elements) (same : xs.map f = ys.map f) :
    xs = ys := by
  induction xs generalizing ys with
  | nil => simpa using same.symm
  | cons x xs inductionHypothesis =>
    cases ys with
    | nil => simp at same
    | cons y ys =>
      obtain ⟨head, tail⟩ := List.cons_eq_cons.mp same
      have heads := injective (inXs x List.mem_cons_self) (inYs y List.mem_cons_self) head
      rw [heads, inductionHypothesis (fun x member => inXs x (List.mem_cons_of_mem _ member))
        (fun y member => inYs y (List.mem_cons_of_mem _ member)) tail]

end KernelLearning.Bytes
