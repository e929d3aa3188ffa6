import KernelLearning.Interaction.Executions
import Mathlib.Logic.Function.Basic

/-!
# A buffer guarded by semaphores

`produce` and `consume` of the semaphore example, from the values on that `main`
gives to semaphores that did not exist before.  A step is one operation of one of the
threads: a `sem_wait`, which waits for a positive value, a `sem_post`, or what is done
between them.
-/

namespace KernelLearning.SemBuffer

def NBUFF : Nat := 10

inductive Semaphore where
  | mutex
  | nempty
  | nstored
  deriving DecidableEq

/-- The buffer of `struct shared`, which is zeroed, and the values that were printed. -/
structure Data where
  buf : Vector Int NBUFF
  printed : List Int

structure Shared where
  sems : Semaphore → Nat
  data : Data

/-- Where a thread is in a turn of its loop: before waiting for a credit, before locking the mutex,
before the body, before unlocking the mutex, and before giving a credit. -/
inductive Place where
  | credit
  | lock
  | body
  | unlock
  | post
  deriving DecidableEq

structure Thread where
  i : Nat
  place : Place

/-! ## The threads -/

def semWait (sems : Semaphore → Nat) (sem : Semaphore) : Option (Semaphore → Nat) :=
  if sems sem = 0 then none else some (Function.update sems sem (sems sem - 1))

def semPost (sems : Semaphore → Nat) (sem : Semaphore) : Semaphore → Nat :=
  Function.update sems sem (sems sem + 1)

/-- The next operation of a thread that takes a credit for each turn, runs `body` under the mutex
and gives a credit; `none` if it has to wait or has returned. -/
def advance (nitems : Int) (taken given : Semaphore) (body : Nat → Data → Data) (thread : Thread)
    (shared : Shared) : Option (Thread × Shared) :=
  match thread.place with
  | .credit =>
    if (thread.i : Int) < nitems then
      (semWait shared.sems taken).map fun sems => (⟨thread.i, .lock⟩, { shared with sems := sems })
    else none
  | .lock => (semWait shared.sems .mutex).map fun sems => (⟨thread.i, .body⟩, { shared with sems := sems })
  | .body => some (⟨thread.i, .unlock⟩, { shared with data := body thread.i shared.data })
  | .unlock => some (⟨thread.i, .post⟩, { shared with sems := semPost shared.sems .mutex })
  | .post => some (⟨thread.i + 1, .credit⟩, { shared with sems := semPost shared.sems given })

/-- `i % NBUFF`. -/
def slot (i : Nat) : Fin NBUFF := ⟨i % NBUFF, Nat.mod_lt i (by decide)⟩

/-- `shared_t.buf[i%NBUFF] = i`. -/
def store (i : Nat) (data : Data) : Data := { data with buf := data.buf.set (slot i) i }

/-- Prints `shared_t.buf[i%NBUFF]`. -/
def print (i : Nat) (data : Data) : Data := { data with printed := data.printed ++ [data.buf[slot i]] }

def produce (nitems : Int) : Thread → Shared → Option (Thread × Shared) := advance nitems .nempty .nstored store

def consume (nitems : Int) : Thread → Shared → Option (Thread × Shared) := advance nitems .nstored .nempty print

/-! ## Both threads -/

structure System where
  producer : Thread
  consumer : Thread
  shared : Shared

/-- What `main` opens the semaphores with. -/
def initialValue : Semaphore → Nat
  | .mutex => 1
  | .nempty => 1
  | .nstored => 1

def System.init : System where
  producer := ⟨0, .credit⟩
  consumer := ⟨0, .credit⟩
  shared := ⟨initialValue, ⟨Vector.replicate NBUFF 0, []⟩⟩

/-- Which thread moves. -/
inductive Mover where
  | produce
  | consume
  deriving DecidableEq

def step (nitems : Int) (system : System) : Mover → Option System
  | .produce => (SemBuffer.produce nitems system.producer system.shared).map fun moved =>
      { system with producer := moved.1, shared := moved.2 }
  | .consume => (SemBuffer.consume nitems system.consumer system.shared).map fun moved =>
      { system with consumer := moved.1, shared := moved.2 }

/-! ## Counting what a thread has done -/

namespace Thread

/-- The credits it took. -/
def waits (thread : Thread) : Nat :=
  match thread.place with
  | .credit => thread.i
  | _ => thread.i + 1

/-- How often it ran its body. -/
def bodies (thread : Thread) : Nat :=
  match thread.place with
  | .unlock | .post => thread.i + 1
  | _ => thread.i

/-- Whether it holds the mutex. -/
def holds (thread : Thread) : Nat :=
  match thread.place with
  | .body | .unlock => 1
  | _ => 0

end Thread

/-- What an operation of a thread does to the semaphores, the data and its counts.  The index is
the number of credits it gave. -/
structure Moved (taken given : Semaphore) (body : Nat → Data → Data) (thread : Thread) (shared : Shared)
    (thread' : Thread) (shared' : Shared) : Prop where
  taken : shared'.sems taken + thread'.waits = shared.sems taken + thread.waits
  given : shared'.sems given + thread.i = shared.sems given + thread'.i
  mutex : shared'.sems .mutex + thread'.holds = shared.sems .mutex + thread.holds
  data : (thread.place = .body ∧ shared'.data = body thread.i shared.data ∧ thread'.bodies = thread.bodies + 1) ∨
    (thread.place ≠ .body ∧ shared'.data = shared.data ∧ thread'.bodies = thread.bodies)

theorem semWait_eq_some {sems sems' : Semaphore → Nat} {sem : Semaphore} (waited : semWait sems sem = some sems') :
    sems' sem + 1 = sems sem ∧ ∀ other, other ≠ sem → sems' other = sems other := by
  simp only [semWait] at waited
  split at waited
  · cases waited
  · rename_i positive
    obtain rfl := Option.some.inj waited
    refine ⟨?_, fun other different => Function.update_of_ne different _ _⟩
    rw [Function.update_self]
    omega

theorem moved {nitems : Int} {taken given : Semaphore} {body : Nat → Data → Data} {thread thread' : Thread}
    {shared shared' : Shared} (apart : taken ≠ given) (takenNotMutex : taken ≠ .mutex)
    (givenNotMutex : given ≠ .mutex)
    (advanced : advance nitems taken given body thread shared = some (thread', shared')) :
    Moved taken given body thread shared thread' shared' := by
  obtain ⟨i, place⟩ := thread
  cases place with
  | credit =>
    simp only [advance] at advanced
    split at advanced
    · obtain ⟨sems, waited, eq⟩ := Option.map_eq_some_iff.mp advanced
      cases eq
      obtain ⟨less, others⟩ := semWait_eq_some waited
      refine ⟨?_, ?_, ?_, .inr ⟨nofun, rfl, rfl⟩⟩
      · simp only [Thread.waits]
        omega
      · exact congrArg (· + i) (others given apart.symm)
      · exact others .mutex takenNotMutex.symm
    · cases advanced
  | lock =>
    simp only [advance] at advanced
    obtain ⟨sems, waited, eq⟩ := Option.map_eq_some_iff.mp advanced
    cases eq
    obtain ⟨less, others⟩ := semWait_eq_some waited
    refine ⟨?_, ?_, ?_, .inr ⟨nofun, rfl, rfl⟩⟩
    · exact congrArg (· + (i + 1)) (others taken takenNotMutex)
    · exact congrArg (· + i) (others given givenNotMutex)
    · exact less
  | body =>
    -- the only step that touches the data, with the mutex held
    cases advanced
    exact ⟨rfl, rfl, rfl, .inl ⟨rfl, rfl, rfl⟩⟩
  | unlock =>
    cases advanced
    refine ⟨?_, ?_, ?_, .inr ⟨nofun, rfl, rfl⟩⟩
    · exact congrArg (· + (i + 1)) (Function.update_of_ne takenNotMutex _ _)
    · exact congrArg (· + i) (Function.update_of_ne givenNotMutex _ _)
    · exact Function.update_self Semaphore.mutex (shared.sems .mutex + 1) shared.sems
  | post =>
    cases advanced
    refine ⟨?_, ?_, ?_, .inr ⟨nofun, rfl, rfl⟩⟩
    · exact congrArg (· + (i + 1)) (Function.update_of_ne apart _ _)
    · simp only [semPost, Function.update_self]
      omega
    · exact Function.update_of_ne givenNotMutex.symm _ _

end KernelLearning.SemBuffer
