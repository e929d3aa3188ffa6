import KernelLearning.Interaction.Counting
import KernelLearning.SharedMemory.Processes

/-!
# The semaphore of the count

A semaphore that a writer made lets one process at a time to the count.  It may have lost
its name by then: the processes that opened it go on with it.
-/

namespace KernelLearning.SharedMemory

open Interaction

variable {processes : Nat}

/-- The process is between `sem_wait` and `sem_post` of the semaphore. -/
def Process.holds (id : Nat) (process : Process) : Bool :=
  process.mutex = some id && (process.place = .store || process.place = .print || process.place = .semPost)

def Process.ended (process : Process) : Bool := process.place = .returned || process.place = .exited

/-- The value that a semaphore began with. -/
def initialValue (kernel : Kernel) (id : Nat) : Nat :=
  if id < kernel.sems.created then kernel.sems.content id else 1

/-! ## The variables of a process -/

/-- `ptr` refers to memory that is there and has its size. -/
def Sized (process : Process) (kernel : Kernel) : Prop :=
  ∃ id, process.ptr = some id ∧ id < kernel.shm.created ∧ (kernel.shm.content id).isSome = true

def Opened (process : Process) (kernel : Kernel) : Prop :=
  ∃ id, process.mutex = some id ∧ id < kernel.sems.created

/-- What the place of a process says about its variables. -/
def Ready (args : Args) (process : Process) (kernel : Kernel) : Prop :=
  match process.place with
  | .shmUnlink | .shmOpen | .returned | .exited => True
  | .ftruncate => ∃ id, process.ptr = some id ∧ id < kernel.shm.created
  | .semUnlink | .semOpen => Sized process kernel
  | .semWait | .print | .semPost => Sized process kernel ∧ Opened process kernel
  | .store => Sized process kernel ∧ Opened process kernel ∧ args.count.isSome = true

/-- Nothing is taken from the memory that is there. -/
structure Grown (kernel kernel' : Kernel) : Prop where
  shm : kernel.shm.created ≤ kernel'.shm.created
  sems : kernel.sems.created ≤ kernel'.sems.created
  content : ∀ id < kernel.shm.created, (kernel.shm.content id).isSome = true →
    (kernel'.shm.content id).isSome = true

variable {args : Args} {process process' : Process} {kernel kernel' : Kernel} {line : Option Int}

theorem Grown.of_eq (shm : kernel'.shm.created = kernel.shm.created) (sems : kernel.sems.created ≤ kernel'.sems.created)
    (content : kernel'.shm.content = kernel.shm.content) : Grown kernel kernel' where
  shm := Nat.le_of_eq shm.symm
  sems := sems
  content := by
    rw [content]
    exact fun _ _ here => here

/-- Writing to an object gives it a size. -/
theorem Grown.write (id : Nat) (value : Int) :
    Grown kernel { kernel with shm := kernel.shm.write id (some value) } where
  shm := Nat.le_refl _
  sems := Nat.le_refl _
  content := by
    intro other _ here
    simp only [Registry.content_write, Function.update_apply]
    split
    · rfl
    · exact here

theorem ran_grown (ran : Ran args process kernel process' kernel' line) : Grown kernel kernel' := by
  cases ran with
  | shmUnlink | shmFailed | attach | semUnlink | semFailed | semAttach | semWait | print | semPost =>
    exact .of_eq rfl (Nat.le_refl _) rfl
  | make place writes made =>
    have created := Registry.created_of_create made
    refine ⟨by simp [created.created], Nat.le_refl _, fun id below here => ?_⟩
    simp only [created.content, Function.update_of_ne (Nat.ne_of_lt below)]
    exact here
  | @ftruncate id place ptr => exact .write id _
  | semMake place made => exact .of_eq rfl (by simp [(Registry.created_of_create made).created]) rfl
  | @store id count place ptr writes => exact .write id _

theorem Sized.grown (sized : Sized process kernel) (grown : Grown kernel kernel') : Sized process kernel' := by
  obtain ⟨id, ptr, below, here⟩ := sized
  exact ⟨id, ptr, Nat.lt_of_lt_of_le below grown.shm, grown.content id below here⟩

theorem Opened.grown (opened : Opened process kernel) (grown : Grown kernel kernel') : Opened process kernel' := by
  obtain ⟨id, mutex, below⟩ := opened
  exact ⟨id, mutex, Nat.lt_of_lt_of_le below grown.sems⟩

theorem Ready.grown (ready : Ready args process kernel) (grown : Grown kernel kernel') :
    Ready args process kernel' := by
  simp only [Ready] at ready ⊢
  cases place : process.place <;> simp only [place] at ready ⊢
  case ftruncate =>
    obtain ⟨id, ptr, below⟩ := ready
    exact ⟨id, ptr, Nat.lt_of_lt_of_le below grown.shm⟩
  case semUnlink => exact ready.grown grown
  case semOpen => exact ready.grown grown
  case semWait => exact ⟨ready.1.grown grown, ready.2.grown grown⟩
  case print => exact ⟨ready.1.grown grown, ready.2.grown grown⟩
  case semPost => exact ⟨ready.1.grown grown, ready.2.grown grown⟩
  case store => exact ⟨ready.1.grown grown, ready.2.1.grown grown, ready.2.2⟩

theorem ran_ready (ready : Ready args process kernel) (ran : Ran args process kernel process' kernel' line) :
    Ready args process' kernel' := by
  have grown := ran_grown ran
  simp only [Ready] at ready
  cases ran with
  | shmUnlink place | shmFailed place | semFailed place | semPost place => trivial
  | attach place reads entry => exact ⟨_, rfl, kernel.shm.bounded _ _ entry⟩
  | make place writes made => exact ⟨_, rfl, by simp [(Registry.created_of_create made).created]⟩
  | @ftruncate id place ptr =>
    rw [place] at ready
    obtain ⟨other, same, below⟩ := ready
    rw [ptr] at same
    cases same
    have sized : Sized process { kernel with shm := kernel.shm.write id (some ((kernel.shm.content id).getD 0)) } :=
      ⟨id, ptr, below, by simp⟩
    simp only [Ready, Process.goto]
    cases args.count.isSome <;> exact sized
  | semUnlink place =>
    rw [place] at ready
    exact ready.grown grown
  | @semAttach id place entry =>
    rw [place] at ready
    exact ⟨ready, id, rfl, kernel.sems.bounded _ _ entry⟩
  | semMake place made =>
    rw [place] at ready
    exact ⟨ready.grown grown, _, rfl, by simp [(Registry.created_of_create made).created]⟩
  | semWait place mutex positive =>
    rw [place] at ready
    simp only [Ready, Process.goto]
    cases writes : args.count.isSome with
    | false => exact ⟨ready.1.grown grown, ready.2.grown grown⟩
    | true => exact ⟨ready.1.grown grown, ready.2.grown grown, rfl⟩
  | store place ptr writes =>
    rw [place] at ready
    exact ⟨ready.1.grown grown, ready.2.1.grown grown⟩
  | print place ptr here =>
    rw [place] at ready
    exact ready

/-! ## The value of a semaphore -/

/-- What a step does to a semaphore is what it does to the holders. -/
theorem ran_value {id : Nat} (below : id < kernel.sems.created) (ran : Ran args process kernel process' kernel' line) :
    kernel'.sems.content id + (process'.holds id).toNat = kernel.sems.content id + (process.holds id).toNat := by
  cases ran with
  | shmUnlink place | shmFailed place | attach place | make place | semUnlink place | semFailed place
    | semAttach place => simp [Process.holds, Process.goto, place]
  | store place | print place =>
    simp only [Process.holds, Process.goto, place]
    rfl
  | ftruncate place ptr => cases args.count.isSome <;> simp [Process.holds, Process.goto, place]
  | semMake place made =>
    simp [Process.holds, place, (Registry.created_of_create made).content, Nat.ne_of_lt below]
  | @semWait other place mutex positive =>
    by_cases same : other = id
    · rw [same] at mutex positive ⊢
      cases args.count.isSome <;> simp [Process.holds, Process.goto, place, mutex] <;> omega
    · cases args.count.isSome <;> simp [Process.holds, Process.goto, mutex, same, Ne.symm same]
  | @semPost other place mutex =>
    by_cases same : other = id
    · rw [same] at mutex ⊢
      simp [Process.holds, Process.goto, place, mutex]
    · simp [Process.holds, Process.goto, mutex, same, Ne.symm same]

theorem not_holds_of_ready (ready : Ready args process kernel) {id : Nat} (past : kernel.sems.created ≤ id) :
    process.holds id = false := by
  rw [← Bool.not_eq_true]
  intro holds
  simp only [Process.holds, Bool.and_eq_true, decide_eq_true_eq, Bool.or_eq_true] at holds
  obtain ⟨mutex, place⟩ := holds
  have opened : Opened process kernel := by
    simp only [Ready] at ready
    rcases place with (store | print) | post
    · rw [store] at ready
      exact ready.2.1
    · rw [print] at ready
      exact ready.2
    · rw [post] at ready
      exact ready.2
  obtain ⟨other, same, below⟩ := opened
  rw [mutex] at same
  cases same
  exact absurd below (Nat.not_lt_of_le past)

/-! ## Runs -/

structure Accounted (args : Fin processes → Args) (kernel : Kernel) (system : System processes) : Prop where
  later : kernel.sems.created ≤ system.kernel.sems.created
  ready : ∀ process, Ready (args process) (system.process process) system.kernel
  value : ∀ id < system.kernel.sems.created,
    system.kernel.sems.content id + tally (Process.holds id) system.process = initialValue kernel id

theorem init_accounted (args : Fin processes → Args) (kernel : Kernel) :
    Accounted args kernel (System.init args kernel) := by
  have start : ∀ args : Args, Ready args (.start args) kernel ∧ ∀ id, (Process.start args).holds id = false := by
    intro args
    simp only [Process.start]
    cases args.count.isSome with
    | false => exact ⟨trivial, fun _ => rfl⟩
    | true => exact ⟨trivial, fun _ => rfl⟩
  refine ⟨Nat.le_refl _, fun process => (start _).1, fun id below => ?_⟩
  have nobody : tally (Process.holds id) (System.init args kernel).process = 0 :=
    tally_eq_zero _ _ fun process => (start _).2 id
  rw [nobody]
  exact (if_pos below).symm

theorem created_or_same (ran : Ran args process kernel process' kernel' line) :
    kernel'.sems.created = kernel.sems.created ∨ kernel'.sems.created = kernel.sems.created + 1 ∧
      kernel'.sems.content kernel.sems.created = 1 ∧ process'.place = .semWait := by
  cases ran with
  | semMake place made =>
    have created := Registry.created_of_create made
    exact .inr ⟨created.created, by simp [created.content], rfl⟩
  | shmUnlink | shmFailed | attach | make | ftruncate | semUnlink | semFailed | semAttach | semWait | store | print
    | semPost => exact .inl rfl

theorem step_accounted {args : Fin processes → Args} {system system' : System processes} {mover : Fin processes}
    (accounted : Accounted args kernel system) (taken : step args system mover = some system') :
    Accounted args kernel system' := by
  obtain ⟨process', kernel', line, ran, rfl, updated, _⟩ := step_cases taken
  have grown := ran_grown ran
  refine ⟨Nat.le_trans accounted.later grown.sems, ?_, ?_⟩
  · intro process
    rw [updated, Function.update_apply]
    split
    · rename_i same
      rw [same]
      exact ran_ready (accounted.ready mover) ran
    · exact (accounted.ready process).grown grown
  · intro id below
    have moved := tally_update (Process.holds id) system.process mover process'
    rw [updated]
    by_cases before : id < system.kernel.sems.created
    · have value := ran_value before ran
      have account := accounted.value id before
      omega
    · -- the semaphore is the one that was made now, and nobody holds it
      have nobody := tally_eq_zero (Process.holds id) system.process fun process =>
        not_holds_of_ready (accounted.ready process) (Nat.le_of_not_lt before)
      rcases created_or_same ran with same | ⟨more, one, place⟩
      · omega
      · have this : id = system.kernel.sems.created := by omega
        have outside : process'.holds id = false := by simp [Process.holds, place]
        rw [not_holds_of_ready (accounted.ready mover) (Nat.le_of_not_lt before), outside, nobody] at moved
        have early := accounted.later
        rw [this] at moved ⊢
        rw [one, initialValue, if_neg (Nat.not_lt_of_le early)]
        simp only [Bool.toNat_false, Nat.add_zero] at moved
        rw [moved]

/-- Only a process that waits for a semaphore cannot go on. -/
theorem waits_of_stuck (ready : Ready args process kernel) (running : process.ended = false)
    (stuck : run args process kernel = none) :
    process.place = .semWait ∧ ∃ id, process.mutex = some id ∧ id < kernel.sems.created ∧
      kernel.sems.content id = 0 := by
  simp only [Ready] at ready
  cases place : process.place <;> simp only [place, run] at ready stuck
  case shmUnlink | shmOpen | semUnlink | semOpen => cases stuck
  case ftruncate =>
    obtain ⟨id, ptr, _⟩ := ready
    rw [ptr] at stuck
    cases stuck
  case semWait =>
    obtain ⟨_, id, mutex, below⟩ := ready
    refine ⟨rfl, id, mutex, below, ?_⟩
    rw [mutex, Option.bind_some] at stuck
    split at stuck
    · rename_i zero
      exact zero
    · cases stuck
  case store =>
    obtain ⟨⟨id, ptr, _⟩, _, writes⟩ := ready
    obtain ⟨count, given⟩ := Option.isSome_iff_exists.mp writes
    rw [ptr, given] at stuck
    cases stuck
  case print =>
    obtain ⟨⟨id, ptr, _, filled⟩, _⟩ := ready
    obtain ⟨count, here⟩ := Option.isSome_iff_exists.mp filled
    rw [ptr, Option.bind_some, here] at stuck
    cases stuck
  case semPost =>
    obtain ⟨_, id, mutex, _⟩ := ready
    rw [mutex] at stuck
    cases stuck
  case returned => simp [Process.ended, place] at running
  case exited => simp [Process.ended, place] at running

/-- Of the processes that use a semaphore made by one of them, one at a time is between its wait and
its post.  As long as not all have ended, one can go on, if the semaphores from before are not exhausted. -/
theorem one_inside_and_live {args : Fin processes → Args}
    {past : List (System processes × Fin processes)} {last : System processes}
    (execution : Execution (step args) (System.init args kernel) past last) :
    (∀ id, kernel.sems.created ≤ id → ∀ process other, (last.process process).holds id = true →
      (last.process other).holds id = true → process = other) ∧
    ((∀ id < kernel.sems.created, 0 < kernel.sems.content id) →
      (∀ process, (last.process process).ended = true) ∨ ∃ mover last', step args last mover = some last') := by
  have accounted := execution.always (Accounted args kernel) (init_accounted args kernel)
    fun _ _ _ accounted taken => step_accounted accounted taken
  constructor
  · intro id new process other here there
    have below : id < last.kernel.sems.created := by
      rw [← Nat.not_le]
      intro past
      rw [not_holds_of_ready (accounted.ready process) past] at here
      cases here
    have account := accounted.value id below
    rw [initialValue, if_neg (Nat.not_lt_of_le new)] at account
    exact eq_of_tally_le_one (Process.holds id) last.process (by omega) here there
  · intro positive
    by_cases moves : ∃ mover last', step args last mover = some last'
    · exact .inr moves
    · refine .inl fun process => ?_
      have stuck : ∀ mover, run (args mover) (last.process mover) last.kernel = none := by
        intro mover
        cases ran : run (args mover) (last.process mover) last.kernel with
        | none => rfl
        | some result => exact absurd ⟨mover, _, by rw [step, ran, Option.map_some]⟩ moves
      rw [← Bool.not_eq_false]
      intro running
      obtain ⟨_, id, _, below, zero⟩ := waits_of_stuck (accounted.ready process) running (stuck process)
      -- whoever holds the semaphore could go on, so nobody does, and its value is positive
      have nobody : ∀ other, (last.process other).holds id = false := by
        intro other
        rw [← Bool.not_eq_true]
        intro holds
        simp only [Process.holds, Bool.and_eq_true, decide_eq_true_eq, Bool.or_eq_true] at holds
        have alive : (last.process other).ended = false := by
          rcases holds.2 with (place | place) | place <;> simp [Process.ended, place]
        have waits := (waits_of_stuck (accounted.ready other) alive (stuck other)).1
        rw [waits] at holds
        simp at holds
      have account := accounted.value id below
      rw [tally_eq_zero _ _ nobody, zero, initialValue] at account
      split at account
      · rename_i old
        have value := positive id old
        omega
      · omega

def twoWriters (_ : Fin 2) : Args := ⟨[109], [115], some [53]⟩

/-- The first of two writers is between its wait and its post. -/
theorem one_inside_and_live_store : ∃ past last,
    Execution (step twoWriters) (System.init twoWriters .empty) past last ∧ (last.process 0).holds 0 = true ∧
      (last.process 1).holds 0 = false ∧ ∃ mover last', step twoWriters last mover = some last' := by
  have performed : ∃ last, perform (step twoWriters) (System.init twoWriters .empty) [0, 0, 0, 0, 0, 0, 1] =
      some last ∧ (last.process 0).holds 0 = true ∧ (last.process 0).ended = false := ⟨_, rfl, rfl, rfl⟩
  obtain ⟨last, performed, inside, running⟩ := performed
  obtain ⟨past, _, execution⟩ := execution_of_perform performed
  obtain ⟨alone, live⟩ := one_inside_and_live execution
  refine ⟨past, last, execution, inside, ?_, (live fun id below => absurd below (Nat.not_lt_zero id)).resolve_left ?_⟩
  · rw [← Bool.not_eq_true]
    intro other
    cases alone 0 (Nat.le_refl 0) 0 1 inside other
  · intro all
    rw [all 0] at running
    cases running

end KernelLearning.SharedMemory
