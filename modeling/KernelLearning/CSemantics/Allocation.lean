import Mathlib.Data.List.Perm.Subperm
import Mathlib.Logic.Function.Basic

/-!
# malloc and free

An allocator answers from a state of its own, which stands for everything its answers depend on.  An
object that is not live cannot be read, written or freed: such an access is `none`.
-/

namespace KernelLearning.CSemantics

variable {κ ν σ : Type}

/-- It returns `NULL`, or an address that is not live and the content that is found there. -/
structure Allocator (κ ν σ : Type) where
  malloc : σ → (κ → Option ν) → Option (κ × ν) × σ
  free : σ → κ → σ
  fresh : ∀ state heap address content, (malloc state heap).1 = some (address, content) → heap address = none

/-- All that is live is at these addresses. -/
def Occupies (live : List κ) (heap : κ → Option ν) : Prop :=
  ∀ address content, heap address = some content → address ∈ live

theorem Occupies.update [DecidableEq κ] {live : List κ} {heap : κ → Option ν} (occupies : Occupies live heap)
    (address : κ) (content : Option ν) : Occupies (address :: live) (Function.update heap address content) := by
  intro other found here
  by_cases same : other = address
  · exact List.mem_cons.mpr (.inl same)
  · rw [Function.update_of_ne same] at here
    exact List.mem_cons_of_mem _ (occupies other found here)

theorem Occupies.update_of_mem [DecidableEq κ] {live : List κ} {heap : κ → Option ν} (occupies : Occupies live heap)
    {address : κ} (member : address ∈ live) (content : Option ν) :
    Occupies live (Function.update heap address content) := by
  intro other found here
  rcases List.mem_cons.mp (occupies.update address content other found here) with same | behind
  · rw [same]
    exact member
  · exact behind

/-- It has room for this many objects. -/
def Allocator.Provides (allocator : Allocator κ ν σ) (capacity : Nat) : Prop :=
  ∀ state heap live, Occupies live heap → live.length < capacity → (allocator.malloc state heap).1.isSome

/-- The first address that is not live, of so many. -/
def firstFit (capacity : Nat) (content : ν) : Allocator Nat ν Unit where
  malloc _ heap := (((List.range capacity).find? fun address => (heap address).isNone).map (·, content), ())
  free _ _ := ()
  fresh := by
    intro state heap address content' answer
    obtain ⟨found, search, same⟩ := Option.map_eq_some_iff.mp answer
    cases same
    have free := List.find?_some search
    exact Option.isNone_iff_eq_none.mp free

theorem firstFit_provides (capacity : Nat) (content : ν) : (firstFit capacity content).Provides capacity := by
  intro state heap live occupies room
  rw [firstFit, Option.isSome_map, List.find?_isSome]
  -- otherwise all of the addresses are live
  refine Decidable.byContradiction fun none => ?_
  have all : List.range capacity ⊆ live := by
    intro address member
    cases here : heap address with
    | none => exact absurd ⟨address, member, by rw [here]; rfl⟩ none
    | some content => exact occupies address content here
  have few := (List.nodup_range.subperm all).length_le
  rw [List.length_range] at few
  omega

structure Memory (κ ν σ : Type) where
  heap : κ → Option ν
  state : σ

namespace Memory

variable [DecidableEq κ] {allocator : Allocator κ ν σ} {memory memory' : Memory κ ν σ} {address : κ}
  {pointer : Option κ} {content : ν}

def load (memory : Memory κ ν σ) (pointer : Option κ) : Option ν := pointer.bind memory.heap

/-- A store to some of the fields. -/
def modify (memory : Memory κ ν σ) (pointer : Option κ) (change : ν → ν) : Option (Memory κ ν σ) :=
  pointer.bind fun address => (memory.heap address).map fun content =>
    { memory with heap := Function.update memory.heap address (some (change content)) }

def malloc (allocator : Allocator κ ν σ) (memory : Memory κ ν σ) : Option κ × Memory κ ν σ :=
  match allocator.malloc memory.state memory.heap with
  | (none, state) => (none, { memory with state := state })
  | (some (address, content), state) =>
    (some address, { heap := Function.update memory.heap address (some content), state := state })

/-- `free(NULL)` does nothing. -/
def free (allocator : Allocator κ ν σ) (memory : Memory κ ν σ) : Option κ → Option (Memory κ ν σ)
  | none => some memory
  | some address => (memory.heap address).map fun _ =>
    { heap := Function.update memory.heap address none, state := allocator.free memory.state address }

theorem modify_of_live (live : memory.heap address = some content) (change : ν → ν) :
    memory.modify (some address) change =
      some { memory with heap := Function.update memory.heap address (some (change content)) } := by
  rw [modify, Option.bind_some, live, Option.map_some]

theorem modify_some {change : ν → ν} (stored : memory.modify pointer change = some memory') :
    ∃ address content, pointer = some address ∧ memory.heap address = some content ∧
      memory'.heap = Function.update memory.heap address (some (change content)) := by
  obtain ⟨address, here, stored⟩ := Option.bind_eq_some_iff.mp stored
  obtain ⟨content, live, same⟩ := Option.map_eq_some_iff.mp stored
  exact ⟨address, content, here, live, by rw [← same]⟩

omit [DecidableEq κ] in
theorem load_some (memory : Memory κ ν σ) (address : κ) : memory.load (some address) = memory.heap address := rfl

theorem free_of_live (live : memory.heap address = some content) :
    memory.free allocator (some address) =
      some { heap := Function.update memory.heap address none, state := allocator.free memory.state address } := by
  rw [free, live, Option.map_some]

/-- What is returned was not live, and is the only thing that changes. -/
theorem malloc_some (returned : memory.malloc allocator = (some address, memory')) :
    memory.heap address = none ∧ ∃ content, memory'.heap = Function.update memory.heap address (some content) := by
  rw [malloc] at returned
  split at returned
  · cases returned
  · rename_i found content state answer
    simp only [Prod.mk.injEq, Option.some.injEq] at returned
    obtain ⟨same, changed⟩ := returned
    subst same
    refine ⟨allocator.fresh _ _ _ content (by rw [answer]), content, ?_⟩
    rw [← changed]

theorem malloc_of_provides {capacity : Nat} {live : List κ} (provides : allocator.Provides capacity)
    (occupies : Occupies live memory.heap) (room : live.length < capacity) :
    ∃ address memory', memory.malloc allocator = (some address, memory') := by
  have answered := provides memory.state memory.heap live occupies room
  rw [malloc]
  split
  · rename_i answer
    rw [answer] at answered
    exact absurd answered Bool.false_ne_true
  · exact ⟨_, _, rfl⟩

end Memory

end KernelLearning.CSemantics
