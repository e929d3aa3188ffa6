import KernelLearning.Bytes.Overlay

/-!
# Bytes at addresses

A memory with a byte at every address, what lies at an address on, and what a
store leaves there and elsewhere.
-/

namespace KernelLearning.Bytes

variable {α : Type}

/-- A byte at every address. -/
abbrev Addresses (α : Type) := Nat → α

/-- The `count` elements from `address` on. -/
def Addresses.load (memory : Addresses α) (address count : Nat) : List α :=
  (List.range count).map fun index => memory (address + index)

/-- `bytes` from `address` on. -/
def Addresses.store (memory : Addresses α) (address : Nat) (bytes : List α) : Addresses α := fun place =>
  if address ≤ place then bytes[place - address]?.getD (memory place) else memory place

@[simp] theorem Addresses.length_load (memory : Addresses α) (address count : Nat) :
    (memory.load address count).length = count := by
  simp [Addresses.load]

theorem Addresses.getElem?_load (memory : Addresses α) (address count index : Nat) :
    (memory.load address count)[index]? = if index < count then some (memory (address + index)) else none := by
  by_cases inside : index < count
  · simp [Addresses.load, inside]
  · simp [Addresses.load, inside]

/-- What begins at an address begins with what is shorter there. -/
theorem Addresses.take_load (memory : Addresses α) (address : Nat) {count short : Nat} (le : short ≤ count) :
    (memory.load address count).take short = memory.load address short := by
  rw [Addresses.load, ← List.map_take, List.take_range, Nat.min_eq_left le]
  rfl

/-- A store leaves alone what lies elsewhere. -/
theorem Addresses.load_store_apart (memory : Addresses α) {address other count : Nat} {bytes : List α}
    (apart : other + count ≤ address ∨ address + bytes.length ≤ other) :
    (memory.store address bytes).load other count = memory.load other count := by
  rw [Addresses.load, Addresses.load, List.map_inj_left]
  intro index member
  have inside := List.mem_range.mp member
  simp only [Addresses.store]
  split
  case isTrue reaches =>
    rw [List.getElem?_eq_none (by omega)]
    rfl
  case isFalse before => rfl

/-- A store overlays what lies at its address. -/
theorem Addresses.load_store (memory : Addresses α) (address count : Nat) (bytes : List α) :
    (memory.store address bytes).load address count = overlay (memory.load address count) 0 bytes := by
  apply List.ext_getElem?
  intro index
  by_cases inside : index < count
  · rw [Addresses.getElem?_load, if_pos inside]
    simp only [Addresses.store, if_pos (Nat.le_add_right address index), Nat.add_sub_cancel_left]
    by_cases written : index < bytes.length
    · rw [getElem?_overlay_inside (Nat.zero_le _) (by omega) (by simpa using inside), Nat.sub_zero,
        List.getElem?_eq_getElem written]
      rfl
    · rw [getElem?_overlay_outside (.inr (by omega)), Addresses.getElem?_load, if_pos inside,
        List.getElem?_eq_none (Nat.le_of_not_lt written)]
      rfl
  · rw [Addresses.getElem?_load, if_neg inside, List.getElem?_eq_none]
    simpa using inside

end KernelLearning.Bytes
