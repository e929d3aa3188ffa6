import KernelLearning.Interaction.Executions
import KernelLearning.Interaction.Registry
import KernelLearning.CSemantics.Numeral

/-!
# A count in shared memory

The shared memory example.  With three arguments a process makes the memory and the
semaphore anew and writes a count, with two it prints the count that is there.  A step
is one system call or one access to the memory of any of the processes.
-/

namespace KernelLearning.SharedMemory

open CSemantics Interaction

abbrev Name := List Byte

/-- The arguments: the names of the memory and of the semaphore, and the count that a writer is given. -/
structure Args where
  shm : Name
  sem : Name
  count : Option (List Byte)

/-- Where `main` is: before the named call, or before the access to the memory. -/
inductive Place where
  | shmUnlink
  | shmOpen
  | ftruncate
  | semUnlink
  | semOpen
  | semWait
  | store
  | print
  | semPost
  | returned
  | exited
  deriving DecidableEq

/-- The variables: the memory that `fd` and `ptr` refer to, and `mutex`. -/
structure Process where
  place : Place
  ptr : Option Nat
  mutex : Option Nat

/-- The memory objects, whose size is zero before `ftruncate`, and the semaphores. -/
structure Kernel where
  shm : Registry Name (Option Int)
  sems : Registry Name Nat

/-- Nothing has been made. -/
def Kernel.empty : Kernel where
  shm := ⟨fun _ => none, fun _ => none, 0, fun _ _ here => nomatch here⟩
  sems := ⟨fun _ => none, fun _ => 0, 0, fun _ _ here => nomatch here⟩

def Process.start (args : Args) : Process where
  place := if args.count.isSome then .shmUnlink else .shmOpen
  ptr := none
  mutex := none

def Process.goto (process : Process) (place : Place) : Process := { process with place := place }

/-- `shm_open`, for a writer with `O_CREAT | O_EXCL`. -/
def shmOpen (args : Args) (process : Process) (kernel : Kernel) : Process × Kernel :=
  match args.count with
  | none =>
    match kernel.shm.entry args.shm with
    | none => (process.goto .exited, kernel)
    | some id => ({ process with place := .ftruncate, ptr := some id }, kernel)
  | some _ =>
    match kernel.shm.create args.shm none with
    | none => (process.goto .exited, kernel)
    | some shm => ({ process with place := .ftruncate, ptr := some kernel.shm.created }, { kernel with shm := shm })

/-- `sem_open`, for a writer with `O_CREAT | O_EXCL` and the value 1. -/
def semOpen (args : Args) (process : Process) (kernel : Kernel) : Process × Kernel :=
  match args.count with
  | none =>
    match kernel.sems.entry args.sem with
    | none => (process.goto .exited, kernel)
    | some id => ({ process with place := .semWait, mutex := some id }, kernel)
  | some _ =>
    match kernel.sems.create args.sem 1 with
    | none => (process.goto .exited, kernel)
    | some sems => ({ process with place := .semWait, mutex := some kernel.sems.created }, { kernel with sems := sems })

/-- The next call or access of a process, and the count that it prints; `none` if it waits or has ended. -/
def run (args : Args) (process : Process) (kernel : Kernel) : Option (Process × Kernel × Option Int) :=
  match process.place with
  | .shmUnlink => some (process.goto .shmOpen, { kernel with shm := kernel.shm.unlink args.shm }, none)
  | .shmOpen =>
    let opened := shmOpen args process kernel
    some (opened.1, opened.2, none)
  | .ftruncate => process.ptr.map fun id =>
    (process.goto (if args.count.isSome then .semUnlink else .semOpen),
      { kernel with shm := kernel.shm.write id (some ((kernel.shm.content id).getD 0)) }, none)
  | .semUnlink => some (process.goto .semOpen, { kernel with sems := kernel.sems.unlink args.sem }, none)
  | .semOpen =>
    let opened := semOpen args process kernel
    some (opened.1, opened.2, none)
  | .semWait => process.mutex.bind fun id =>
    if kernel.sems.content id = 0 then none
    else some (process.goto (if args.count.isSome then .store else .print),
      { kernel with sems := kernel.sems.write id (kernel.sems.content id - 1) }, none)
  | .store => process.ptr.bind fun id => args.count.map fun count =>
    (process.goto .print, { kernel with shm := kernel.shm.write id (some (atoi count)) }, none)
  | .print => process.ptr.bind fun id => (kernel.shm.content id).map fun count =>
    (process.goto .semPost, kernel, some count)
  | .semPost => process.mutex.map fun id =>
    (process.goto .returned, { kernel with sems := kernel.sems.write id (kernel.sems.content id + 1) }, none)
  | .returned => none
  | .exited => none

/-- The processes, and what they printed. -/
structure System (processes : Nat) where
  kernel : Kernel
  process : Fin processes → Process
  printed : List (Fin processes × Int)

variable {processes : Nat}

def System.init (args : Fin processes → Args) (kernel : Kernel) : System processes where
  kernel := kernel
  process := fun id => .start (args id)
  printed := []

/-- One of the processes goes on. -/
def step (args : Fin processes → Args) (system : System processes) (id : Fin processes) :
    Option (System processes) :=
  (run (args id) (system.process id) system.kernel).map fun result =>
    { kernel := result.2.1
      process := Function.update system.process id result.1
      printed := system.printed ++ (result.2.2.map fun count => (id, count)).toList }

/-! ## What a call does -/

inductive Ran (args : Args) (process : Process) (kernel : Kernel) : Process → Kernel → Option Int → Prop where
  | shmUnlink (place : process.place = .shmUnlink) :
      Ran args process kernel (process.goto .shmOpen) { kernel with shm := kernel.shm.unlink args.shm } none
  | shmFailed (place : process.place = .shmOpen) : Ran args process kernel (process.goto .exited) kernel none
  | attach {id} (place : process.place = .shmOpen) (reads : args.count = none)
      (entry : kernel.shm.entry args.shm = some id) :
      Ran args process kernel { process with place := .ftruncate, ptr := some id } kernel none
  | make {count shm} (place : process.place = .shmOpen) (writes : args.count = some count)
      (made : kernel.shm.create args.shm none = some shm) :
      Ran args process kernel { process with place := .ftruncate, ptr := some kernel.shm.created }
        { kernel with shm := shm } none
  | ftruncate {id} (place : process.place = .ftruncate) (ptr : process.ptr = some id) :
      Ran args process kernel (process.goto (if args.count.isSome then .semUnlink else .semOpen))
        { kernel with shm := kernel.shm.write id (some ((kernel.shm.content id).getD 0)) } none
  | semUnlink (place : process.place = .semUnlink) :
      Ran args process kernel (process.goto .semOpen) { kernel with sems := kernel.sems.unlink args.sem } none
  | semFailed (place : process.place = .semOpen) : Ran args process kernel (process.goto .exited) kernel none
  | semAttach {id} (place : process.place = .semOpen) (entry : kernel.sems.entry args.sem = some id) :
      Ran args process kernel { process with place := .semWait, mutex := some id } kernel none
  | semMake {sems} (place : process.place = .semOpen) (made : kernel.sems.create args.sem 1 = some sems) :
      Ran args process kernel { process with place := .semWait, mutex := some kernel.sems.created }
        { kernel with sems := sems } none
  | semWait {id} (place : process.place = .semWait) (mutex : process.mutex = some id)
      (positive : kernel.sems.content id ≠ 0) :
      Ran args process kernel (process.goto (if args.count.isSome then .store else .print))
        { kernel with sems := kernel.sems.write id (kernel.sems.content id - 1) } none
  | store {id count} (place : process.place = .store) (ptr : process.ptr = some id)
      (writes : args.count = some count) :
      Ran args process kernel (process.goto .print) { kernel with shm := kernel.shm.write id (some (atoi count)) } none
  | print {id count} (place : process.place = .print) (ptr : process.ptr = some id)
      (here : kernel.shm.content id = some count) :
      Ran args process kernel (process.goto .semPost) kernel (some count)
  | semPost {id} (place : process.place = .semPost) (mutex : process.mutex = some id) :
      Ran args process kernel (process.goto .returned)
        { kernel with sems := kernel.sems.write id (kernel.sems.content id + 1) } none

variable {args : Args} {process process' : Process} {kernel kernel' : Kernel} {line : Option Int}

theorem shmOpen_cases (place : process.place = .shmOpen) :
    Ran args process kernel (shmOpen args process kernel).1 (shmOpen args process kernel).2 none := by
  simp only [shmOpen]
  split
  · rename_i reads
    split
    · exact .shmFailed place
    · rename_i id entry
      exact .attach place reads entry
  · rename_i count writes
    split
    · exact .shmFailed place
    · rename_i shm made
      exact .make place writes made

theorem semOpen_cases (place : process.place = .semOpen) :
    Ran args process kernel (semOpen args process kernel).1 (semOpen args process kernel).2 none := by
  simp only [semOpen]
  split
  · split
    · exact .semFailed place
    · rename_i id entry
      exact .semAttach place entry
  · split
    · exact .semFailed place
    · rename_i sems made
      exact .semMake place made

theorem run_cases (ran : run args process kernel = some (process', kernel', line)) :
    Ran args process kernel process' kernel' line := by
  simp only [run] at ran
  split at ran
  · rename_i place
    cases ran
    exact .shmUnlink place
  · rename_i place
    cases ran
    exact shmOpen_cases place
  · rename_i place
    obtain ⟨id, ptr, same⟩ := Option.map_eq_some_iff.mp ran
    cases same
    exact .ftruncate place ptr
  · rename_i place
    cases ran
    exact .semUnlink place
  · rename_i place
    cases ran
    exact semOpen_cases place
  · rename_i place
    obtain ⟨id, mutex, waited⟩ := Option.bind_eq_some_iff.mp ran
    split at waited
    · cases waited
    · rename_i positive
      cases waited
      exact .semWait place mutex positive
  · rename_i place
    obtain ⟨id, ptr, stored⟩ := Option.bind_eq_some_iff.mp ran
    obtain ⟨count, writes, same⟩ := Option.map_eq_some_iff.mp stored
    cases same
    exact .store place ptr writes
  · rename_i place
    obtain ⟨id, ptr, printed⟩ := Option.bind_eq_some_iff.mp ran
    obtain ⟨count, here, same⟩ := Option.map_eq_some_iff.mp printed
    cases same
    exact .print place ptr here
  · rename_i place
    obtain ⟨id, mutex, same⟩ := Option.map_eq_some_iff.mp ran
    cases same
    exact .semPost place mutex
  · cases ran
  · cases ran

/-- One process went on, and the others are where they were. -/
theorem step_cases {args : Fin processes → Args} {system system' : System processes} {id : Fin processes}
    (taken : step args system id = some system') :
    ∃ process' kernel' line, Ran (args id) (system.process id) system.kernel process' kernel' line ∧
      system'.kernel = kernel' ∧ system'.process = Function.update system.process id process' ∧
      system'.printed = system.printed ++ (line.map fun count => (id, count)).toList := by
  obtain ⟨result, ran, same⟩ := Option.map_eq_some_iff.mp taken
  obtain ⟨process', kernel', line⟩ := result
  cases same
  exact ⟨process', kernel', line, run_cases ran, rfl, rfl, rfl⟩

end KernelLearning.SharedMemory
