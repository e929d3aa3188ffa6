import KernelLearning.MutexCond.Threads
import Mathlib.Data.List.Nodup

/-!
# The lines that are printed

`nval` runs along with `nput`, so a slot holds zero or its own index, however often
the producers wrap around; and `cnt` never goes down, so no index is printed twice.
-/

namespace KernelLearning.MutexCond

open Interaction

variable {producers consumers : Nat}

namespace System

/-- The counters agree, a slot holds zero or its index, and the lines printed so far are right and
have different indices up to `cnt`. -/
structure Consistent (nitems : Nat) (system : System producers consumers) : Prop where
  counters : system.nval = system.nput
  slots : ∀ k, system.buf k = 0 ∨ system.buf k = (k : Int)
  lines : ∀ line ∈ system.printed, line.2 = (line.1 : Int) ∧ 1 ≤ line.1 ∧ line.1 < nitems ∧ line.1 ≤ system.cnt
  distinct : (system.printed.map Prod.fst).Nodup

variable {nitems : Nat}

theorem init_consistent : (System.init producers consumers).Consistent nitems where
  counters := rfl
  slots := fun _ => .inl rfl
  lines := fun _ member => absurd member List.not_mem_nil
  distinct := List.nodup_nil

theorem Consistent.of_same {system system' : System producers consumers} (consistent : system.Consistent nitems)
    (same : system.SameData system') : system'.Consistent nitems where
  counters := by rw [same.nval, same.nput]; exact consistent.counters
  slots := by rw [same.buf]; exact consistent.slots
  lines := by rw [same.printed, same.cnt]; exact consistent.lines
  distinct := by rw [same.printed]; exact consistent.distinct

/-- A put fills a slot with its index. -/
theorem put_consistent {system : System producers consumers} (consistent : system.Consistent nitems) :
    (system.put nitems).Consistent nitems := by
  obtain ⟨counters, slots, lines, distinct⟩ := consistent
  have filled : ∀ (index : Nat) (value : Int), value = index → ∀ k,
      Function.update system.buf index value k = 0 ∨ Function.update system.buf index value k = (k : Int) := by
    intro index value own k
    by_cases here : k = index
    · right
      rw [here, Function.update_self, own]
    · rw [Function.update_of_ne here]
      exact slots k
  simp only [put]
  split
  · -- the producers begin a new round
    exact ⟨rfl, filled 0 0 rfl, lines, distinct⟩
  · exact ⟨by simp only [counters]; rfl, filled _ _ counters, lines, distinct⟩

/-- Taking an item that is there prints its index, which is larger than all printed before. -/
theorem print_consistent {system : System producers consumers} (consistent : system.Consistent nitems)
    (below : system.cnt + 1 < nitems) (filled : system.buf (system.cnt + 1) ≠ 0) :
    ({ system with
      cnt := system.cnt + 1
      printed := system.printed ++ [(system.cnt + 1, system.buf (system.cnt + 1))]
      buf := Function.update system.buf (system.cnt + 1) 0 } : System producers consumers).Consistent nitems := by
  obtain ⟨counters, slots, lines, distinct⟩ := consistent
  refine ⟨counters, ?_, ?_, ?_⟩
  · intro k
    by_cases here : k = system.cnt + 1
    · left
      simp only [here, Function.update_self]
    · simp only [Function.update_of_ne here]
      exact slots k
  · intro line member
    cases List.mem_append.mp member with
    | inl earlier =>
      obtain ⟨own, positive, inside, upTo⟩ := lines line earlier
      exact ⟨own, positive, inside, Nat.le_succ_of_le upTo⟩
    | inr last =>
      obtain rfl := List.mem_singleton.mp last
      -- a slot holds 0 or its own index, and this one is not 0
      cases slots (system.cnt + 1) with
      | inl zero => exact absurd zero filled
      | inr own => exact ⟨own, Nat.succ_pos _, below, Nat.le_refl _⟩
  · rw [List.map_append, List.nodup_append]
    refine ⟨distinct, List.nodup_singleton _, ?_⟩
    -- the lines before have indices up to the old `cnt`
    intro index earlier other last same
    obtain ⟨line, member, rfl⟩ := List.mem_map.mp earlier
    have upTo := (lines line member).2.2.2
    simp only [List.map_cons, List.map_nil, List.mem_singleton] at last
    omega

theorem count_consistent {system : System producers consumers} (consistent : system.Consistent nitems) :
    ({ system with cnt := system.cnt + 1 } : System producers consumers).Consistent nitems where
  counters := consistent.counters
  slots := consistent.slots
  lines := by
    intro line member
    obtain ⟨own, positive, inside, upTo⟩ := consistent.lines line member
    exact ⟨own, positive, inside, Nat.le_succ_of_le upTo⟩
  distinct := consistent.distinct

theorem step_consistent {system system' : System producers consumers} {event : Event producers consumers}
    (consistent : system.Consistent nitems) (taken : step nitems system event = some system') :
    system'.Consistent nitems := by
  cases touched taken with
  | put thread same => exact (put_consistent consistent).of_same same
  | returns thread last same => exact (count_consistent consistent).of_same same
  | empty thread below zero same => exact (count_consistent consistent).of_same same
  | prints thread below filled same => exact (print_consistent consistent below filled).of_same same
  | other notPut notInspect same => exact consistent.of_same same

end System

/-- Every line says the index of its slot, from 1 on and below `nitems`, and no index is printed
twice. -/
theorem lines_right {nitems : Nat} {past : List (System producers consumers × Event producers consumers)}
    {last : System producers consumers}
    (execution : Execution (step nitems) (System.init producers consumers) past last) :
    (∀ line ∈ last.printed, line.2 = (line.1 : Int) ∧ 1 ≤ line.1 ∧ line.1 < nitems) ∧
      (last.printed.map Prod.fst).Nodup := by
  have consistent := execution.always (System.Consistent nitems) System.init_consistent
    fun _ _ _ consistent taken => System.step_consistent consistent taken
  refine ⟨?_, consistent.distinct⟩
  intro line member
  obtain ⟨own, positive, inside, _⟩ := consistent.lines line member
  exact ⟨own, positive, inside⟩

/-- A line is printed. -/
theorem lines_right_one : ∃ past last, Execution (step 3) (System.init 1 1) past last ∧
    last.printed = [(1, 1)] ∧ (∀ line ∈ last.printed, line.2 = (line.1 : Int) ∧ 1 ≤ line.1 ∧ line.1 < 3) ∧
      (last.printed.map Prod.fst).Nodup := by
  obtain ⟨past, before, last, execution, printed, _⟩ := prints_second
  exact ⟨_, last, execution, printed, lines_right execution⟩

end KernelLearning.MutexCond
