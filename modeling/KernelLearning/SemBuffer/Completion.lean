import KernelLearning.SemBuffer.Credits

/-!
# Every run comes to its end

However the threads take turns, one of them can go on until both have returned.  The credit too
many lets `consume` be one item ahead, so a line shows its item or what its slot held before.
-/

namespace KernelLearning.SemBuffer

open Interaction

/-! ## Operations -/

namespace Place

/-- How many operations of a turn come before this place. -/
def before : Place → Nat
  | .credit => 0
  | .lock => 1
  | .body => 2
  | .unlock => 3
  | .post => 4

end Place

namespace Thread

/-- The operations that a thread has made. -/
def operations (thread : Thread) : Nat := 5 * thread.i + thread.place.before

def Returned (nitems : Int) (thread : Thread) : Prop := thread.place = .credit ∧ nitems ≤ thread.i

/-- A thread makes no turn past the last one. -/
structure Within (nitems : Int) (thread : Thread) : Prop where
  upTo : thread.i ≤ nitems.toNat
  inside : thread.place ≠ .credit → thread.i < nitems.toNat

theorem Within.operations_le {nitems : Int} {thread : Thread} (within : thread.Within nitems) :
    thread.operations ≤ 5 * nitems.toNat := by
  obtain ⟨i, place⟩ := thread
  obtain ⟨upTo, inside⟩ := within
  cases place with
  | credit =>
    simp only [operations, Place.before] at upTo ⊢
    omega
  | lock | body | unlock | post =>
    have below := inside (by simp)
    simp only [operations, Place.before] at below ⊢
    omega

end Thread

section
variable {nitems : Int} {taken given : Semaphore} {body : Nat → Data → Data} {thread thread' : Thread}
  {shared shared' : Shared}

/-- An operation counts, and stays within the turns. -/
theorem advance_counts (within : thread.Within nitems)
    (advanced : advance nitems taken given body thread shared = some (thread', shared')) :
    thread'.operations = thread.operations + 1 ∧ thread'.Within nitems := by
  obtain ⟨i, place⟩ := thread
  obtain ⟨upTo, inside⟩ := within
  cases place with
  | credit =>
    simp only [advance] at advanced
    split at advanced
    · rename_i below
      obtain ⟨sems, _, eq⟩ := Option.map_eq_some_iff.mp advanced
      cases eq
      exact ⟨rfl, upTo, fun _ => by simp only; omega⟩
    · cases advanced
  | lock =>
    simp only [advance] at advanced
    obtain ⟨sems, _, eq⟩ := Option.map_eq_some_iff.mp advanced
    cases eq
    exact ⟨rfl, upTo, fun _ => inside (by simp)⟩
  | body =>
    cases advanced
    exact ⟨rfl, upTo, fun _ => inside (by simp)⟩
  | unlock =>
    cases advanced
    exact ⟨rfl, upTo, fun _ => inside (by simp)⟩
  | post =>
    cases advanced
    have below : i < nitems.toNat := inside (by simp)
    refine ⟨?_, below, fun other => absurd rfl other⟩
    simp only [Thread.operations, Place.before]
    omega

/-- A thread that cannot go on has returned, or waits for a credit or for the mutex. -/
theorem waits_of_stuck (stuck : advance nitems taken given body thread shared = none) :
    thread.place = .credit ∧ (nitems ≤ thread.i ∨ shared.sems taken = 0) ∨
      thread.place = .lock ∧ shared.sems .mutex = 0 := by
  obtain ⟨i, place⟩ := thread
  cases place with
  | credit =>
    left
    simp only [advance, semWait] at stuck
    split at stuck
    · split at stuck
      · rename_i zero
        exact ⟨rfl, .inr zero⟩
      · cases stuck
    · rename_i last
      exact ⟨rfl, .inl (Int.not_lt.mp last)⟩
  | lock =>
    right
    simp only [advance, semWait] at stuck
    split at stuck
    · rename_i zero
      exact ⟨rfl, zero⟩
    · cases stuck
  | body | unlock | post => cases stuck

end

/-! ## Both threads -/

namespace System

def operations (system : System) : Nat := system.producer.operations + system.consumer.operations

/-- Both threads have returned. -/
def Returned (nitems : Int) (system : System) : Prop :=
  system.producer.Returned nitems ∧ system.consumer.Returned nitems

/-- What slot `k % NBUFF` holds. -/
def held (system : System) (k : Nat) : Int := system.shared.data.buf.get (slot k)

/-- What slot `k % NBUFF` holds before item `k` is stored. -/
def stale (k : Nat) : Int := if k < NBUFF then 0 else (k : Int) - NBUFF

/-- What `consume` shows as item `k`: the item, if it has been stored. -/
def line (system : System) (k : Nat) : Int := if k < system.stored then k else stale k

/-- The accounts, the turns, and the slots that no item has been stored to. -/
structure Going (nitems : Int) (system : System) : Prop where
  accounted : system.Accounted
  producer : system.producer.Within nitems
  consumer : system.consumer.Within nitems
  zero : ∀ k, system.stored ≤ k → k < NBUFF → system.held k = 0

variable {nitems : Int} {system system' : System}

theorem init_going : System.init.Going nitems where
  accounted := init_accounted
  producer := ⟨Nat.zero_le _, fun other => absurd rfl other⟩
  consumer := ⟨Nat.zero_le _, fun other => absurd rfl other⟩
  zero := by
    intro k _ _
    change (Vector.replicate NBUFF (0 : Int))[slot k] = 0
    simp

theorem produce_going (going : system.Going nitems) (taken : step nitems system .produce = some system') :
    system'.Going nitems := by
  have accounted := produce_accounted going.accounted taken
  obtain ⟨⟨thread', shared'⟩, advanced, rfl⟩ := Option.map_eq_some_iff.mp taken
  have moved := SemBuffer.moved (by decide) (by decide) (by decide) advanced
  have within := (advance_counts going.producer advanced).2
  cases moved.data with
  | inl run =>
    obtain ⟨place, data, bodies⟩ := run
    have index := Thread.bodies_of_body place
    refine ⟨accounted, within, going.consumer, ?_⟩
    intro k above below
    have untouched := going.zero k (by simp only [stored, bodies] at above ⊢; omega) below
    have apart : slot system.producer.i ≠ slot k := by
      refine slot_ne ?_ ?_
      · simp only [stored, bodies] at above
        omega
      · omega
    change system.shared.data.buf[slot k] = 0 at untouched
    change shared'.data.buf[slot k] = 0
    simp only [data, store, Fin.getElem_fin, Vector.getElem_set] at untouched ⊢
    rw [if_neg (fun same => apart (Fin.ext same))]
    exact untouched
  | inr still =>
    obtain ⟨_, data, bodies⟩ := still
    refine ⟨accounted, within, going.consumer, ?_⟩
    simp only [held, stored, bodies, data]
    exact going.zero

/-- What `consume` finds in its slot. -/
theorem Going.found (going : system.Going nitems) (place : system.consumer.place = .body) :
    system.held system.consumer.i = system.line system.consumer.i := by
  have apart := going.accounted.stored_le
  have credits := going.accounted.nstored
  have index := Thread.bodies_of_body place
  have producer := system.producer.bounds
  have waits : system.consumer.waits = system.consumer.i + 1 := by simp [Thread.waits, place]
  simp only [taken] at apart
  rw [line]
  split
  · rename_i isStored
    exact going.accounted.items _ isStored (by simp only [NBUFF]; omega)
  · -- one item ahead: the slot still has the item that was stored to it before
    rename_i behind
    have level : system.stored = system.consumer.i := by
      simp only [stored] at behind ⊢
      omega
    unfold stale
    split
    · rename_i first
      exact going.zero _ (Nat.le_of_not_lt behind) first
    · rename_i later
      have same : slot system.consumer.i = slot (system.consumer.i - NBUFF) := by
        refine Fin.ext ?_
        simp only [slot, NBUFF] at later ⊢
        omega
      have positive : 0 < NBUFF := by decide
      have before := going.accounted.items (system.consumer.i - NBUFF) (by omega) (by omega)
      refine (congrArg (fun index : Fin NBUFF => system.shared.data.buf[index]) same).trans (before.trans ?_)
      omega

theorem consume_going (going : system.Going nitems) (taken : step nitems system .consume = some system') :
    system'.Going nitems := by
  have accounted := consume_accounted going.accounted taken
  obtain ⟨⟨thread', shared'⟩, advanced, rfl⟩ := Option.map_eq_some_iff.mp taken
  have moved := SemBuffer.moved (by decide) (by decide) (by decide) advanced
  have within := (advance_counts going.consumer advanced).2
  refine ⟨accounted, going.producer, within, ?_⟩
  cases moved.data with
  | inl run =>
    simp only [held, run.2.1, print]
    exact going.zero
  | inr still =>
    simp only [held, still.2.1]
    exact going.zero

/-- A line that was not there before is the one of the item that `consume` is at. -/
theorem step_printed (going : system.Going nitems) {mover : Mover} (taken : step nitems system mover = some system')
    {k : Nat} {value : Int} (here : system'.shared.data.printed[k]? = some value)
    (new : system.shared.data.printed[k]? ≠ some value) :
    mover = .consume ∧ system.consumer = ⟨k, .body⟩ ∧ value = system.line k := by
  cases mover with
  | produce =>
    obtain ⟨⟨thread', shared'⟩, advanced, rfl⟩ := Option.map_eq_some_iff.mp taken
    have moved := SemBuffer.moved (by decide) (by decide) (by decide) advanced
    refine absurd ?_ new
    cases moved.data with
    | inl run => simpa only [run.2.1, store] using here
    | inr still => simpa only [still.2.1] using here
  | consume =>
    obtain ⟨⟨thread', shared'⟩, advanced, rfl⟩ := Option.map_eq_some_iff.mp taken
    have moved := SemBuffer.moved (by decide) (by decide) (by decide) advanced
    cases moved.data with
    | inr still => exact absurd (by simpa only [still.2.1] using here) new
    | inl run =>
      obtain ⟨place, data, _⟩ := run
      have length : system.shared.data.printed.length = system.consumer.i := by
        rw [going.accounted.printed, System.taken, Thread.bodies_of_body place]
      simp only [data, print] at here
      rcases Nat.lt_or_ge k system.shared.data.printed.length with earlier | last
      · rw [List.getElem?_append_left earlier] at here
        exact absurd here new
      · rw [List.getElem?_append_right last, List.getElem?_singleton] at here
        split at here
        · obtain rfl : system.consumer.i = k := by omega
          refine ⟨rfl, ?_, (Option.some.inj here).symm.trans (going.found place)⟩
          rw [← place]
        · cases here

theorem step_going (going : system.Going nitems) {mover : Mover} (taken : step nitems system mover = some system') :
    system'.Going nitems := by
  cases mover with
  | produce => exact produce_going going taken
  | consume => exact consume_going going taken

theorem step_counts (going : system.Going nitems) {mover : Mover} (taken : step nitems system mover = some system') :
    system'.operations = system.operations + 1 := by
  cases mover with
  | produce =>
    obtain ⟨⟨thread', shared'⟩, advanced, rfl⟩ := Option.map_eq_some_iff.mp taken
    have counts := (advance_counts going.producer advanced).1
    simp only [operations]
    omega
  | consume =>
    obtain ⟨⟨thread', shared'⟩, advanced, rfl⟩ := Option.map_eq_some_iff.mp taken
    have counts := (advance_counts going.consumer advanced).1
    simp only [operations]
    omega

/-- One of the threads can go on until both have returned. -/
theorem Going.progress (going : system.Going nitems) :
    system.Returned nitems ∨ ∃ mover next, step nitems system mover = some next := by
  by_cases moves : ∃ mover next, step nitems system mover = some next
  · exact .inr moves
  left
  have stuck : ∀ mover, step nitems system mover = none := by
    intro mover
    cases ran : step nitems system mover with
    | none => rfl
    | some next => exact absurd ⟨mover, next, ran⟩ moves
  have producer := waits_of_stuck (Option.map_eq_none_iff.mp (stuck .produce))
  have consumer := waits_of_stuck (Option.map_eq_none_iff.mp (stuck .consume))
  obtain ⟨nempty, nstored, mutex, _, _⟩ := going.accounted
  have producerUpTo := going.producer.upTo
  have consumerUpTo := going.consumer.upTo
  obtain ⟨⟨i, at_⟩, ⟨j, there⟩, shared⟩ := system
  -- neither of them holds the mutex, so nobody waits for it
  rcases producer with ⟨rfl, waiting⟩ | ⟨rfl, locked⟩ <;> rcases consumer with ⟨rfl, waiting'⟩ | ⟨rfl, locked'⟩
  · simp only [Thread.waits] at nempty nstored producerUpTo consumerUpTo waiting waiting'
    exact ⟨⟨rfl, by simp only; omega⟩, ⟨rfl, by simp only; omega⟩⟩
  · simp only [Thread.holds] at mutex locked'
    omega
  · simp only [Thread.holds] at mutex locked
    omega
  · simp only [Thread.holds] at mutex locked
    omega

/-- Every run of the program takes at most ten operations for each item, and can go on until both threads
have returned; then `nitems` lines are printed.  A line shows its item if that has been stored when `consume` is
there, and otherwise what the slot held before that. -/
theorem runs_to_end {past : List (System × Mover)} {last : System}
    (execution : Execution (step nitems) System.init past last) :
    past.length ≤ 10 * nitems.toNat ∧
      (∀ (k : Nat) (value : Int), last.shared.data.printed[k]? = some value →
        ∃ state, (state, .consume) ∈ past ∧ state.consumer = ⟨k, .body⟩ ∧ value = state.line k) ∧
      (last.Returned nitems ∧ last.shared.data.printed.length = nitems.toNat ∨
        ∃ mover next, step nitems last mover = some next) := by
  have keeps : ∀ state mover next, state.Going nitems → step nitems state mover = some next → next.Going nitems :=
    fun _ _ _ going taken => step_going going taken
  have going := execution.always (Going nitems) init_going keeps
  have counted := execution.count_eq (Going nitems) operations init_going keeps
    fun _ _ _ going taken => step_counts going taken
  have producer := going.producer.operations_le
  have consumer := going.consumer.operations_le
  refine ⟨?_, ?_, ?_⟩
  · have none : System.init.operations = 0 := rfl
    simp only [operations] at counted none
    omega
  · intro k value here
    obtain ⟨⟨state, mover⟩, member, new, next, taken, printed⟩ :=
      execution.origin (fun state => state.shared.data.printed[k]? = some value) (by simp [System.init]) here
    have going := execution.always_before (Going nitems) init_going keeps _ member
    obtain ⟨rfl, place, shown⟩ := step_printed going taken printed new
    exact ⟨state, member, place, shown⟩
  · refine going.progress.imp_left fun returned => ⟨returned, ?_⟩
    have upTo := going.consumer.upTo
    obtain ⟨_, place, all⟩ := returned
    rw [going.accounted.printed, taken, Thread.bodies, place]
    simp only
    omega

/-- A run of two items in which each is printed before it is stored. -/
theorem runs_to_end_two : ∃ past last, Execution (step 2) System.init past last ∧ past.length ≤ 20 ∧
    last.shared.data.printed = [0, 0] ∧ last.shared.data.printed.length = 2 ∧
    ∃ state, (state, .consume) ∈ past ∧ state.consumer = ⟨1, .body⟩ ∧ state.stored ≤ 1 := by
  have performed : ∃ last, perform (step 2) System.init
      (List.replicate 5 .consume ++ List.replicate 5 .produce ++ List.replicate 5 .consume ++
        List.replicate 5 .produce) = some last ∧ last.shared.data.printed = [0, 0] ∧
          ∀ mover, step 2 last mover = none := ⟨_, rfl, rfl, fun mover => by cases mover <;> rfl⟩
  obtain ⟨last, performed, printed, stuck⟩ := performed
  obtain ⟨past, _, execution⟩ := execution_of_perform performed
  obtain ⟨short, lines, ends⟩ := runs_to_end execution
  refine ⟨past, last, execution, short, printed, ?_, ?_⟩
  · rcases ends with returned | moves
    · exact returned.2
    · obtain ⟨mover, next, taken⟩ := moves
      rw [stuck mover] at taken
      cases taken
  · obtain ⟨state, member, place, shown⟩ := lines 1 0 (by simp [printed])
    refine ⟨state, member, place, Nat.le_of_not_lt fun isStored => ?_⟩
    rw [line, if_pos isStored] at shown
    cases shown

end System

end KernelLearning.SemBuffer
