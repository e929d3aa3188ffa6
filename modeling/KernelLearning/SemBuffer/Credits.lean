import KernelLearning.SemBuffer.Threads

/-!
# The credits of the semaphores

Both `nempty` and `nstored` begin at 1.  What the threads have done follows from the
values of the semaphores, so an item is stored when it is printed exactly if the
credit that `nstored` began with has not been used up.
-/

namespace KernelLearning.SemBuffer

open Interaction

namespace System

/-- The items stored so far. -/
def stored (system : System) : Nat := system.producer.bodies

/-- The items printed so far. -/
def taken (system : System) : Nat := system.consumer.bodies

/-! ## The accounts -/

/-- The semaphores' values in terms of what the threads did, and the last items in the buffer. -/
structure Accounted (system : System) : Prop where
  nempty : system.shared.sems .nempty + system.producer.waits = 1 + system.consumer.i
  nstored : system.shared.sems .nstored + system.consumer.waits = 1 + system.producer.i
  mutex : system.shared.sems .mutex + system.producer.holds + system.consumer.holds = 1
  items : ∀ k < system.stored, system.stored ≤ k + NBUFF → system.shared.data.buf[slot k] = (k : Int)
  printed : system.shared.data.printed.length = system.taken

theorem init_accounted : System.init.Accounted where
  nempty := rfl
  nstored := rfl
  mutex := rfl
  items := fun k below => absurd below (Nat.not_lt_zero k)
  printed := rfl

end System

/-- Of the items that fit into the buffer, no two share a slot. -/
theorem slot_ne {k i : Nat} (below : k < i) (near : i < k + NBUFF) : slot k ≠ slot i := by
  intro same
  have residues : k % NBUFF = i % NBUFF := congrArg Fin.val same
  simp only [NBUFF] at near residues
  omega

/-- The body of a thread is run for the index of its turn. -/
theorem Thread.bodies_of_body {thread : Thread} (place : thread.place = .body) : thread.bodies = thread.i := by
  simp only [Thread.bodies, place]

theorem Thread.bounds (thread : Thread) :
    thread.i ≤ thread.bodies ∧ thread.bodies ≤ thread.waits ∧ thread.waits ≤ thread.i + 1 := by
  obtain ⟨i, place⟩ := thread
  cases place <;> simp [Thread.bodies, Thread.waits]

namespace System

theorem produce_accounted {nitems : Int} {system system' : System} (accounted : system.Accounted)
    (taken : step nitems system .produce = some system') : system'.Accounted := by
  obtain ⟨⟨thread', shared'⟩, advanced, rfl⟩ := Option.map_eq_some_iff.mp taken
  have moved := SemBuffer.moved (by decide) (by decide) (by decide) advanced
  obtain ⟨nempty, nstored, mutex, items, printed⟩ := accounted
  have takenCredit := moved.taken
  have givenCredit := moved.given
  have locked := moved.mutex
  refine ⟨?_, ?_, ?_, ?items, ?printed⟩
  case items =>
    intro k below near
    cases moved.data with
    | inl run =>
      -- the new item goes to the slot of an item that is no longer among the last ones
      obtain ⟨place, data, bodies⟩ := run
      have index := Thread.bodies_of_body place
      simp only [stored, bodies] at below near items ⊢
      simp only [data, store, Fin.getElem_fin, Vector.getElem_set]
      split
      · rename_i same
        by_cases last : k = system.producer.i
        · rw [last]
        · exact absurd (Fin.ext same.symm) (slot_ne (show k < system.producer.i by omega) (by omega))
      · rename_i other
        have different : k ≠ system.producer.i := by
          rintro rfl
          exact other rfl
        exact items k (by omega) (by omega)
    | inr still =>
      obtain ⟨_, data, bodies⟩ := still
      simp only [stored, bodies] at below near items ⊢
      rw [data]
      exact items k below near
  case printed =>
    have same : shared'.data.printed = system.shared.data.printed := by
      cases moved.data with
      | inl run => rw [run.2.1]; rfl
      | inr still => rw [still.2.1]
    rw [same]
    exact printed
  · simp only
    omega
  · simp only
    omega
  · simp only
    omega

theorem consume_accounted {nitems : Int} {system system' : System} (accounted : system.Accounted)
    (taken : step nitems system .consume = some system') : system'.Accounted := by
  obtain ⟨⟨thread', shared'⟩, advanced, rfl⟩ := Option.map_eq_some_iff.mp taken
  have moved := SemBuffer.moved (by decide) (by decide) (by decide) advanced
  obtain ⟨nempty, nstored, mutex, items, printed⟩ := accounted
  have takenCredit := moved.taken
  have givenCredit := moved.given
  have locked := moved.mutex
  refine ⟨?_, ?_, ?_, ?items, ?printed⟩
  case items =>
    have same : shared'.data.buf = system.shared.data.buf := by
      cases moved.data with
      | inl run => rw [run.2.1]; rfl
      | inr still => rw [still.2.1]
    simp only [same]
    exact items
  case printed =>
    simp only [System.taken] at printed ⊢
    cases moved.data with
    | inl run => rw [run.2.1, run.2.2, print, List.length_append, printed]; rfl
    | inr still => rw [still.2.1, still.2.2, printed]
  · simp only
    omega
  · simp only
    omega
  · simp only
    omega

theorem step_accounted {nitems : Int} {system system' : System} (accounted : system.Accounted) (mover : Mover)
    (taken : step nitems system mover = some system') : system'.Accounted := by
  cases mover with
  | produce => exact produce_accounted accounted taken
  | consume => exact consume_accounted accounted taken

/-! ## How far the threads are apart -/

theorem Accounted.stored_le {system : System} (accounted : system.Accounted) : system.stored ≤ system.taken + 1 := by
  have credits := accounted.nempty
  have producer := system.producer.bounds
  have consumer := system.consumer.bounds
  simp only [stored, taken]
  omega

/-- Printing an item that is stored finds a credit left, or the credit for that item still to
come. -/
theorem Accounted.stored_iff {system : System} (accounted : system.Accounted)
    (place : system.consumer.place = .body) :
    system.consumer.i < system.stored ↔
      0 < system.shared.sems .nstored ∨ system.producer.place = .post := by
  have credits := accounted.nstored
  have mutex := accounted.mutex
  obtain ⟨⟨i, at_⟩, ⟨j, _⟩, shared⟩ := system
  cases place
  simp only [Thread.waits] at credits
  -- the consumer holds the mutex, so the producer is not between its body and its unlock
  cases at_ with
  | credit =>
    simp only [stored, Thread.bodies, reduceCtorEq, or_false]
    omega
  | lock =>
    simp only [stored, Thread.bodies, reduceCtorEq, or_false]
    omega
  | body =>
    simp only [stored, Thread.bodies, reduceCtorEq, or_false]
    omega
  | unlock =>
    simp only [Thread.holds] at mutex
    omega
  | post =>
    simp only [stored, Thread.bodies, or_true, iff_true]
    omega

/-! ## What the buffer promises -/

/-- The values printed are those of the items, in order. -/
def InOrder (system : System) : Prop :=
  ∀ (k : Nat) (value : Int), system.shared.data.printed[k]? = some value → value = k

/-- No more items wait than the buffer holds. -/
def WithinBuffer (system : System) : Prop := system.stored ≤ system.taken + NBUFF

/-- An item is stored over one that was printed, and printed after it was stored and before its slot
is filled again. -/
def SlotsRespected (system : System) : Mover → Prop
  | .produce => system.producer.place = .body → system.producer.i < system.taken + NBUFF
  | .consume => system.consumer.place = .body →
      system.consumer.i < system.stored ∧ system.stored ≤ system.consumer.i + NBUFF

/-- When an item is printed, `nstored` has a credit left, or the producer is about to give one. -/
def CreditLeft (system : System) (mover : Mover) : Prop :=
  mover = .consume → system.consumer.place = .body →
    0 < system.shared.sems .nstored ∨ system.producer.place = .post

instance (system : System) (mover : Mover) : Decidable (system.CreditLeft mover) :=
  inferInstanceAs (Decidable (_ → _ → _))

theorem respected_iff {system : System} (accounted : system.Accounted) (mover : Mover) :
    system.SlotsRespected mover ↔ system.CreditLeft mover := by
  have apart := accounted.stored_le
  cases mover with
  | produce =>
    refine iff_of_true ?_ nofun
    intro place
    have index := Thread.bodies_of_body place
    simp only [stored, NBUFF] at apart ⊢
    omega
  | consume =>
    constructor
    · intro respected _ place
      exact (accounted.stored_iff place).mp (respected place).1
    · intro credit place
      have index := Thread.bodies_of_body place
      refine ⟨(accounted.stored_iff place).mpr (credit rfl place), ?_⟩
      simp only [taken, NBUFF] at apart ⊢
      omega

/-- With a credit left, what is printed next is the next item. -/
theorem step_inOrder {nitems : Int} {system system' : System} {mover : Mover} (accounted : system.Accounted)
    (inOrder : system.InOrder) (credit : system.CreditLeft mover) (taken : step nitems system mover = some system') :
    system'.InOrder := by
  have respected := (respected_iff accounted mover).mpr credit
  cases mover with
  | produce =>
    obtain ⟨⟨thread', shared'⟩, advanced, rfl⟩ := Option.map_eq_some_iff.mp taken
    have moved := SemBuffer.moved (by decide) (by decide) (by decide) advanced
    cases moved.data with
    | inl run =>
      simp only [InOrder, run.2.1]
      exact inOrder
    | inr still =>
      simp only [InOrder, still.2.1]
      exact inOrder
  | consume =>
    obtain ⟨⟨thread', shared'⟩, advanced, rfl⟩ := Option.map_eq_some_iff.mp taken
    have moved := SemBuffer.moved (by decide) (by decide) (by decide) advanced
    cases moved.data with
    | inr still =>
      simp only [InOrder, still.2.1]
      exact inOrder
    | inl run =>
      obtain ⟨place, data, _⟩ := run
      obtain ⟨isStored, near⟩ := respected place
      have item := accounted.items system.consumer.i isStored near
      have length : system.shared.data.printed.length = system.consumer.i := by
        rw [accounted.printed, System.taken, Thread.bodies_of_body place]
      intro k value here
      simp only [data, print, item] at here
      rcases Nat.lt_or_ge k system.shared.data.printed.length with earlier | last
      · rw [List.getElem?_append_left earlier] at here
        exact inOrder k value here
      · rw [List.getElem?_append_right last, List.getElem?_singleton] at here
        split at here
        · rw [← Option.some.inj here, ← length]
          omega
        · cases here

/-- The buffer keeps its promises exactly in the runs in which no item is printed on the credit that
`nstored` began with. -/
theorem handover_iff {nitems : Int} {past : List (System × Mover)} {last : System}
    (execution : Execution (step nitems) System.init past last) :
    ((∀ system ∈ reached past last, system.InOrder ∧ system.WithinBuffer) ∧ Throughout SlotsRespected past) ↔
      Throughout CreditLeft past := by
  have always : ∀ event ∈ past, event.1.Accounted :=
    execution.always_before Accounted init_accounted
      fun _ mover _ accounted taken => step_accounted accounted mover taken
  constructor
  · rintro ⟨_, respected⟩ event member
    exact (respected_iff (always event member) event.2).mp (respected event member)
  · intro credit
    refine ⟨?_, fun event member => (respected_iff (always event member) event.2).mpr (credit event member)⟩
    intro system member
    have both := execution.invariant_reached (fun system => system.Accounted ∧ system.InOrder) CreditLeft
      ⟨init_accounted, by simp [InOrder, System.init]⟩
      (fun _ mover _ invariant credit taken =>
        ⟨step_accounted invariant.1 mover taken, step_inOrder invariant.1 invariant.2 credit taken⟩)
      credit system member
    refine ⟨both.2, ?_⟩
    have apart := both.1.stored_le
    simp only [WithinBuffer, NBUFF]
    omega

/-- One item is stored before it is printed. -/
theorem handover_iff_one : ∃ past last, Execution (step 1) System.init past last ∧
    last.shared.data.printed = [0] ∧
    (∀ system ∈ reached past last, system.InOrder ∧ system.WithinBuffer) ∧ Throughout SlotsRespected past := by
  have begun : Execution (step 1) System.init [] System.init := .start
  have stored := ((((begun.followedBy .produce rfl).followedBy .produce rfl).followedBy .produce rfl).followedBy
    .produce rfl).followedBy .produce rfl
  have execution := ((stored.followedBy .consume rfl).followedBy .consume rfl).followedBy .consume rfl
  refine ⟨_, _, execution, rfl, (handover_iff execution).mpr ?_⟩
  simp only [List.nil_append, throughout_append, throughout_singleton]
  decide

/-- `consume` takes the credit that `nstored` began with, and later prints a slot that is not
filled yet. -/
def consumesFirst : List Mover :=
  List.replicate 5 .consume ++ List.replicate 5 .produce ++ List.replicate 3 .consume

theorem printed_unfilled : ¬ ∀ (nitems : Int) (past : List (System × Mover)) (last : System),
    Execution (step nitems) System.init past last →
      (∀ system ∈ reached past last, system.InOrder ∧ system.WithinBuffer) ∧ Throughout SlotsRespected past := by
  intro claim
  have performed : perform (step 2) System.init consumesFirst = some _ := rfl
  obtain ⟨past, _, execution⟩ := execution_of_perform performed
  have inOrder := ((claim 2 past _ execution).1 _ (List.mem_append_right _ (List.mem_singleton_self _))).1
  have wrong := inOrder 1 0 rfl
  exact absurd wrong (by decide)

end System

end KernelLearning.SemBuffer
