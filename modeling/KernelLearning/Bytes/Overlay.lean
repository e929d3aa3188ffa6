/-!
# Overlays and windows of fixed-length lists

A store of fixed size is a list whose length never changes.  `combineAt` merges
a run of new elements into it at a position, `overlay` is the merge that
overwrites, and `window` reads a run back.  Runs that stick out of the store are
cut off at its end.
-/

namespace KernelLearning.Bytes

variable {α : Type}

/-- Merge `ys` into `xs` from position `pos` on, element by element. -/
def combineAt (combine : α → α → α) (xs : List α) (pos : Nat) (ys : List α) : List α :=
  xs.mapIdx fun index x =>
    if pos ≤ index then
      match ys[index - pos]? with
      | some y => combine x y
      | none => x
    else x

def overlay (xs : List α) (pos : Nat) (ys : List α) : List α :=
  combineAt (fun _ y => y) xs pos ys

def window (xs : List α) (pos count : Nat) : List α :=
  (xs.drop pos).take count

@[simp] theorem length_combineAt (combine : α → α → α) (xs : List α) (pos : Nat) (ys : List α) :
    (combineAt combine xs pos ys).length = xs.length := by
  simp [combineAt]

@[simp] theorem length_overlay (xs : List α) (pos : Nat) (ys : List α) :
    (overlay xs pos ys).length = xs.length := length_combineAt _ _ _ _

theorem length_window (xs : List α) (pos count : Nat) :
    (window xs pos count).length = min count (xs.length - pos) := by
  simp [window]

theorem length_window_le (xs : List α) (pos count : Nat) : (window xs pos count).length ≤ count := by
  rw [length_window]
  exact Nat.min_le_left _ _

theorem length_window_of_le {xs : List α} {pos count : Nat} (inside : pos + count ≤ xs.length) :
    (window xs pos count).length = count := by
  rw [length_window]
  omega

theorem getElem?_combineAt (combine : α → α → α) (xs : List α) (pos : Nat) (ys : List α)
    (index : Nat) :
    (combineAt combine xs pos ys)[index]? =
      xs[index]?.map fun x =>
        if pos ≤ index then
          match ys[index - pos]? with
          | some y => combine x y
          | none => x
        else x := by
  simp [combineAt, List.getElem?_mapIdx]

/-- Each element depends on the one below it alone. -/
theorem getElem?_combineAt_congr {combine : α → α → α} {xs xs' : List α} {pos : Nat} {ys : List α}
    {index : Nat} (same : xs[index]? = xs'[index]?) :
    (combineAt combine xs pos ys)[index]? = (combineAt combine xs' pos ys)[index]? := by
  rw [getElem?_combineAt, getElem?_combineAt, same]

theorem getElem?_combineAt_outside {combine : α → α → α} {xs : List α} {pos : Nat} {ys : List α}
    {index : Nat} (outside : index < pos ∨ pos + ys.length ≤ index) :
    (combineAt combine xs pos ys)[index]? = xs[index]? := by
  rw [getElem?_combineAt]
  by_cases before : pos ≤ index
  · have beyond : ys[index - pos]? = none := List.getElem?_eq_none (by omega)
    simp [beyond]
  · simp [before]

theorem getElem?_overlay_outside {xs : List α} {pos : Nat} {ys : List α} {index : Nat}
    (outside : index < pos ∨ pos + ys.length ≤ index) :
    (overlay xs pos ys)[index]? = xs[index]? := getElem?_combineAt_outside outside

theorem getElem?_combineAt_inside {combine : α → α → α} {xs : List α} {pos : Nat} {ys : List α}
    {offset : Nat} {y : α} (inside : ys[offset]? = some y) :
    (combineAt combine xs pos ys)[pos + offset]? = xs[pos + offset]?.map (combine · y) := by
  rw [getElem?_combineAt]
  simp [inside]

theorem getElem?_overlay_inside {xs : List α} {pos : Nat} {ys : List α} {index : Nat}
    (after : pos ≤ index) (before : index < pos + ys.length) (inside : index < xs.length) :
    (overlay xs pos ys)[index]? = ys[index - pos]? := by
  have bound : index - pos < ys.length := by omega
  rw [overlay, getElem?_combineAt, List.getElem?_eq_getElem inside, List.getElem?_eq_getElem bound]
  simp [after]

theorem getElem?_window (xs : List α) (pos count index : Nat) :
    (window xs pos count)[index]? = if index < count then xs[pos + index]? else none := by
  simp [window, List.getElem?_take]

/-! ## Composing overlays -/

@[simp] theorem combineAt_nil (combine : α → α → α) (xs : List α) (pos : Nat) :
    combineAt combine xs pos [] = xs := by
  apply List.ext_getElem?
  intro index
  exact getElem?_combineAt_outside (by simp; omega)

@[simp] theorem overlay_nil (xs : List α) (pos : Nat) : overlay xs pos [] = xs := combineAt_nil _ _ _

theorem combineAt_append (combine : α → α → α) (xs : List α) (pos : Nat) (ys zs : List α) :
    combineAt combine (combineAt combine xs pos ys) (pos + ys.length) zs =
      combineAt combine xs pos (ys ++ zs) := by
  apply List.ext_getElem?
  intro index
  by_cases before : index < pos
  · rw [getElem?_combineAt_outside (.inl (by omega)), getElem?_combineAt_outside (.inl before),
      getElem?_combineAt_outside (.inl before)]
  by_cases first : index < pos + ys.length
  · rw [getElem?_combineAt_outside (.inl first), getElem?_combineAt, getElem?_combineAt]
    have bound : index - pos < ys.length := by omega
    simp [List.getElem?_append, bound]
  · rw [getElem?_combineAt, getElem?_combineAt_outside (.inr (by omega)), getElem?_combineAt]
    have past : ¬ index - pos < ys.length := by omega
    have shift : index - (pos + ys.length) = index - pos - ys.length := by omega
    simp [List.getElem?_append, past, shift, show pos ≤ index by omega,
      show pos + ys.length ≤ index by omega]

theorem overlay_append (xs : List α) (pos : Nat) (ys zs : List α) :
    overlay (overlay xs pos ys) (pos + ys.length) zs = overlay xs pos (ys ++ zs) :=
  combineAt_append _ _ _ _ _

/-- Overwriting a run again, or a prefix of it first, leaves only the last overwrite. -/
theorem overlay_overlay_of_length_le {xs : List α} {pos : Nat} {ys zs : List α}
    (shorter : ys.length ≤ zs.length) : overlay (overlay xs pos ys) pos zs = overlay xs pos zs := by
  apply List.ext_getElem?
  intro index
  by_cases outside : index < pos ∨ pos + zs.length ≤ index
  · rw [getElem?_overlay_outside outside, getElem?_overlay_outside outside,
      getElem?_overlay_outside (by omega)]
  by_cases inside : index < xs.length
  · rw [getElem?_overlay_inside (by omega) (by omega) (by simpa using inside),
      getElem?_overlay_inside (by omega) (by omega) inside]
  · rw [List.getElem?_eq_none (by simpa using inside), List.getElem?_eq_none (by simpa using inside)]

theorem overlay_comm {xs : List α} {first second : Nat} {ys zs : List α}
    (apart : first + ys.length ≤ second) :
    overlay (overlay xs first ys) second zs = overlay (overlay xs second zs) first ys := by
  apply List.ext_getElem?
  intro index
  by_cases inFirst : index < first ∨ first + ys.length ≤ index
  · have frame : (overlay (overlay xs second zs) first ys)[index]? = (overlay xs second zs)[index]? :=
      getElem?_overlay_outside inFirst
    rw [frame]
    simp only [overlay, getElem?_combineAt]
    congr 1
    rw [← getElem?_combineAt (fun _ y => y), ← overlay, getElem?_overlay_outside inFirst]
  · have frame : (overlay (overlay xs first ys) second zs)[index]? = (overlay xs first ys)[index]? :=
      getElem?_overlay_outside (.inl (by omega))
    rw [frame]
    simp only [overlay, getElem?_combineAt]
    congr 1
    rw [← getElem?_combineAt (fun _ y => y), ← overlay, getElem?_overlay_outside (.inl (by omega))]

theorem window_append (xs : List α) (pos first second : Nat) :
    window xs pos first ++ window xs (pos + first) second = window xs pos (first + second) := by
  simp only [window, ← List.drop_drop]
  rw [List.take_add]

theorem window_overlay_self {xs : List α} {pos : Nat} {ys : List α}
    (inside : pos + ys.length ≤ xs.length) : window (overlay xs pos ys) pos ys.length = ys := by
  apply List.ext_getElem?
  intro index
  rw [getElem?_window]
  by_cases bound : index < ys.length
  · rw [if_pos bound, getElem?_overlay_inside (by omega) (by omega) (by omega)]
    simp
  · rw [if_neg bound, List.getElem?_eq_none (by omega)]

theorem overlay_injective {xs : List α} {pos : Nat} {ys zs : List α} (sameLength : ys.length = zs.length)
    (inside : pos + ys.length ≤ xs.length) (same : overlay xs pos ys = overlay xs pos zs) : ys = zs := by
  rw [← window_overlay_self inside, same, sameLength, window_overlay_self (by omega)]

/-- An overlay from the start keeps the rest. -/
theorem overlay_at_zero {xs ys : List α} (fits : ys.length ≤ xs.length) :
    overlay xs 0 ys = ys ++ xs.drop ys.length := by
  apply List.ext_getElem?
  intro index
  by_cases inside : index < ys.length
  · rw [getElem?_overlay_inside (by omega) (by omega) (by omega), Nat.sub_zero,
      List.getElem?_append_left inside]
  · rw [getElem?_overlay_outside (.inr (by omega)), List.getElem?_append_right (by omega),
      List.getElem?_drop, Nat.add_sub_cancel' (by omega)]

theorem window_overlay_disjoint {xs : List α} {pos count first : Nat} {ys : List α}
    (apart : pos + count ≤ first ∨ first + ys.length ≤ pos) :
    window (overlay xs first ys) pos count = window xs pos count := by
  apply List.ext_getElem?
  intro index
  rw [getElem?_window, getElem?_window]
  split
  · exact getElem?_overlay_outside (by omega)
  · rfl

/-! ## A buffer that holds a copy of part of a store -/

/-- A zeroed buffer of `size` elements into which `ys` was read. -/
def load (size : Nat) (zero : α) (ys : List α) : List α :=
  overlay (List.replicate size zero) 0 ys

@[simp] theorem length_load (size : Nat) (zero : α) (ys : List α) :
    (load size zero ys).length = size := by
  simp [load]

theorem getElem?_load_window {xs : List α} {pos size : Nat} (zero : α) {index : Nat}
    (bound : index < size) (inside : pos + index < xs.length) :
    (load size zero (window xs pos size))[index]? = xs[pos + index]? := by
  have length := length_window xs pos size
  rw [load, getElem?_overlay_inside (by omega) (by omega) (by simpa using bound), getElem?_window]
  simp [bound]

/-- Loading a list of exactly the buffer's size gives the list. -/
theorem load_window_zero {xs : List α} {size : Nat} (zero : α) (length : xs.length = size) :
    load size zero (window xs 0 size) = xs := by
  apply List.ext_getElem?
  intro index
  by_cases inside : index < size
  · rw [getElem?_load_window zero inside (by omega), Nat.zero_add]
  · rw [List.getElem?_eq_none (by rw [length_load]; omega), List.getElem?_eq_none (by omega)]

theorem window_load_window {xs : List α} {pos size : Nat} (zero : α) {inner count : Nat}
    (bound : inner + count ≤ size) (inside : pos + inner + count ≤ xs.length) :
    window (load size zero (window xs pos size)) inner count = window xs (pos + inner) count := by
  apply List.ext_getElem?
  intro index
  rw [getElem?_window, getElem?_window]
  split
  · rw [getElem?_load_window zero (by omega) (by omega), Nat.add_assoc]
  · rfl

/-- Writing a loaded window back with one run changed changes exactly that run,
for every medium on which writing an element over itself does nothing. -/
theorem combineAt_load_window {combine : α → α → α} (idempotent : ∀ x, combine x x = x)
    (xs : List α) (pos size : Nat) (zero : α) (inner : Nat) (ys : List α)
    (bound : inner + ys.length ≤ size) :
    combineAt combine xs pos (overlay (load size zero (window xs pos size)) inner ys) =
      combineAt combine xs (pos + inner) ys := by
  apply List.ext_getElem?
  intro index
  by_cases outside : xs.length ≤ index
  · rw [List.getElem?_eq_none (by simpa using outside), List.getElem?_eq_none (by simpa using outside)]
  by_cases away : index < pos ∨ pos + size ≤ index
  · rw [getElem?_combineAt_outside (by simpa using away), getElem?_combineAt_outside (by omega)]
  by_cases changed : pos + inner ≤ index ∧ index < pos + inner + ys.length
  · rw [getElem?_combineAt, getElem?_combineAt,
      getElem?_overlay_inside (by omega) (by omega) (by simp; omega)]
    simp [show pos ≤ index by omega, show pos + inner ≤ index by omega,
      show index - pos - inner = index - (pos + inner) by omega]
  · have frame : (combineAt combine xs (pos + inner) ys)[index]? = xs[index]? :=
      getElem?_combineAt_outside (by omega)
    rw [frame, getElem?_combineAt,
      getElem?_overlay_outside (by omega), getElem?_load_window zero (by omega) (by omega),
      show pos + (index - pos) = index by omega, List.getElem?_eq_getElem (by omega)]
    simp [idempotent]

/-! ## Prefixes of an overlay -/

/-- An overlay leaves what lies below it. -/
theorem take_overlay_below {xs ys : List α} {pos count : Nat} (below : count ≤ pos) :
    (overlay xs pos ys).take count = xs.take count := by
  apply List.ext_getElem?
  intro index
  simp only [List.getElem?_take]
  split
  · exact getElem?_overlay_outside (.inl (by omega))
  · rfl

/-- Up to its end, an overlay is what was below it, followed by what it wrote. -/
theorem take_overlay_end {xs ys : List α} {pos : Nat} (inside : pos + ys.length ≤ xs.length) :
    (overlay xs pos ys).take (pos + ys.length) = xs.take pos ++ ys := by
  have written := window_overlay_self inside
  rw [List.take_add, take_overlay_below (Nat.le_refl pos)]
  rw [window] at written
  rw [written]

theorem drop_overlay_end (xs ys : List α) (pos : Nat) :
    (overlay xs pos ys).drop (pos + ys.length) = xs.drop (pos + ys.length) := by
  apply List.ext_getElem?
  intro index
  rw [List.getElem?_drop, List.getElem?_drop, getElem?_overlay_outside (.inr (by omega))]

end KernelLearning.Bytes
