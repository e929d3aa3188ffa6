import KernelLearning.Bytes.Overlay

/-!
# Copying within one list, from the lowest position up

A byte-by-byte copy whose source and destination overlap reads what it has
already written, unless the destination starts below the source.
-/

namespace KernelLearning.Bytes

variable {α : Type}

/-- Copy `count` elements from `source` to `target`, one after the other, lowest first.
A read past the end copies nothing. -/
def copyForward (xs : List α) (target source : Nat) : Nat → List α
  | 0 => xs
  | count + 1 =>
    match xs[source]? with
    | some x => copyForward (xs.set target x) (target + 1) (source + 1) count
    | none => copyForward xs (target + 1) (source + 1) count

@[simp] theorem length_copyForward (xs : List α) (target source count : Nat) :
    (copyForward xs target source count).length = xs.length := by
  induction count generalizing xs target source with
  | zero => simp [copyForward]
  | succ count inductionHypothesis =>
    cases here : xs[source]? with
    | none => simp [copyForward, here, inductionHypothesis]
    | some x => simp [copyForward, here, inductionHypothesis]

/-- Downwards, the copy is the source as it was before. -/
theorem getElem?_copyForward {xs : List α} {target source count : Nat} (downwards : target ≤ source)
    (inside : source + count ≤ xs.length) (index : Nat) :
    (copyForward xs target source count)[index]? =
      if target ≤ index ∧ index < target + count then xs[index - target + source]? else xs[index]? := by
  induction count generalizing xs target source with
  | zero =>
    have outside : ¬ (target ≤ index ∧ index < target + 0) := by omega
    rw [if_neg outside]
    rfl
  | succ count inductionHypothesis =>
    have bound : source < xs.length := by omega
    simp only [copyForward, List.getElem?_eq_getElem bound]
    rw [inductionHypothesis (by omega) (by rw [List.length_set]; omega)]
    -- the element just written lies below every later read
    by_cases first : index = target
    · subst first
      rw [if_neg (by omega), if_pos (by omega), List.getElem?_set_self (by omega), Nat.sub_self,
        Nat.zero_add, List.getElem?_eq_getElem bound]
    by_cases later : target + 1 ≤ index ∧ index < target + 1 + count
    · rw [if_pos later, if_pos (by omega), List.getElem?_set_ne (by omega)]
      congr 1
      omega
    · rw [if_neg later, if_neg (by omega), List.getElem?_set_ne (by omega)]

/-- Moving the rest of a list to its front. -/
theorem take_copyForward {xs : List α} {source count : Nat} (inside : source + count ≤ xs.length) :
    (copyForward xs 0 source count).take count = (xs.drop source).take count := by
  apply List.ext_getElem?
  intro index
  simp only [List.getElem?_take]
  split
  · rw [getElem?_copyForward (Nat.zero_le _) inside, if_pos (by omega), List.getElem?_drop,
      Nat.sub_zero, Nat.add_comm]
  · rfl

end KernelLearning.Bytes
