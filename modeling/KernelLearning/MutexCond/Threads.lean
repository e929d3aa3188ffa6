import KernelLearning.Interaction.Executions
import Mathlib.Logic.Function.Basic

/-!
# Producers and consumers under mutexes

`produce` and `consume` of the example with a condition variable, for any number of
producers and consumers.  A step is one critical section of one of the threads, or
the wake-up of a consumer that nobody signalled.  What `main` zeroes is zero from the
start, and the indices into `buf` stay below `nitems`.
-/

namespace KernelLearning.MutexCond

open Interaction

def MAXSIZE : Nat := 102400

/-! ## The threads -/

/-- A producer is before its section under `producer.mutex`, or before the one under
`consumer.mutex`. -/
inductive ProducerPlace where
  | put
  | ready
  deriving DecidableEq

/-- A consumer is before the test of `nready` under `consumer.mutex`, blocked in
`pthread_cond_wait` without a signal, before its section under `producer.mutex`, or done. -/
inductive ConsumerPlace where
  | gate
  | blocked
  | inspect
  | returned
  deriving DecidableEq

/-- `producer`, `consumer` and `cnt`, where the threads are, and the lines that were printed.  `nready` is
an `int` there, so runs in which 2^31 puts wait for a consumer are left out. -/
structure System (producers consumers : Nat) where
  buf : Nat → Int
  nput : Nat
  nval : Int
  nready : Nat
  cnt : Nat
  producer : Fin producers → ProducerPlace
  consumer : Fin consumers → ConsumerPlace
  printed : List (Nat × Int)

def System.init (producers consumers : Nat) : System producers consumers where
  buf := fun _ => 0
  nput := 0
  nval := 0
  nready := 0
  cnt := 0
  producer := fun _ => .put
  consumer := fun _ => .gate
  printed := []

/-- A section of a thread.  `ready` comes with the consumer that `pthread_cond_signal` wakes, and
`wake` is a return from `pthread_cond_wait` without a signal. -/
inductive Event (producers consumers : Nat) where
  | put (thread : Fin producers)
  | ready (thread : Fin producers) (woken : Option (Fin consumers))
  | gate (thread : Fin consumers)
  | wake (thread : Fin consumers)
  | inspect (thread : Fin consumers)
  deriving DecidableEq

namespace System

variable {producers consumers : Nat}

/-! ## The sections -/

/-- The section of `produce` under `producer.mutex`. -/
def put (nitems : Nat) (system : System producers consumers) : System producers consumers :=
  let system := if system.nput ≥ nitems then { system with nput := 0, nval := 0 } else system
  { system with
    buf := Function.update system.buf system.nput system.nval
    nval := system.nval + 1
    nput := system.nput + 1 }

def moveConsumer (system : System producers consumers) (thread : Fin consumers) (place : ConsumerPlace) :
    System producers consumers :=
  { system with consumer := Function.update system.consumer thread place }

def moveProducer (system : System producers consumers) (thread : Fin producers) (place : ProducerPlace) :
    System producers consumers :=
  { system with producer := Function.update system.producer thread place }

/-- `pthread_cond_signal` wakes a blocked consumer if there is one. -/
def Signals (system : System producers consumers) : Option (Fin consumers) → Prop
  | some thread => system.consumer thread = .blocked
  | none => ∀ thread, system.consumer thread ≠ .blocked

instance (system : System producers consumers) (woken : Option (Fin consumers)) : Decidable (system.Signals woken) :=
  match woken with
  | some _ => inferInstanceAs (Decidable (_ = _))
  | none => inferInstanceAs (Decidable (∀ _, _))

def signal (system : System producers consumers) : Option (Fin consumers) → System producers consumers
  | some thread => system.moveConsumer thread .gate
  | none => system

/-- The section of `produce` under `consumer.mutex`; `none` if the signal wakes another consumer. -/
def ready (system : System producers consumers) (woken : Option (Fin consumers)) :
    Option (System producers consumers) :=
  if system.nready = 0 then
    if system.Signals woken then
      some { system.signal woken with nready := system.nready + 1 }
    else none
  else if woken = none then some { system with nready := system.nready + 1 }
  else none

/-- The section of `consume` under `consumer.mutex`, up to `pthread_cond_wait` if it comes to that. -/
def gate (system : System producers consumers) (thread : Fin consumers) : System producers consumers :=
  if system.nready = 0 then system.moveConsumer thread .blocked
  else { system with nready := system.nready - 1 }.moveConsumer thread .inspect

/-- The section of `consume` under `producer.mutex`. -/
def inspect (nitems : Nat) (system : System producers consumers) (thread : Fin consumers) :
    System producers consumers :=
  let system := { system with cnt := system.cnt + 1 }
  if system.cnt ≥ nitems then system.moveConsumer thread .returned
  else
    let system :=
      if system.buf system.cnt ≠ 0 then
        { system with
          printed := system.printed ++ [(system.cnt, system.buf system.cnt)]
          buf := Function.update system.buf system.cnt 0 }
      else system
    system.moveConsumer thread .gate

end System

variable {producers consumers : Nat}

/-- `none` if the thread is not there, or the section cannot go that way. -/
def step (nitems : Nat) (system : System producers consumers) :
    Event producers consumers → Option (System producers consumers)
  | .put thread =>
    if system.producer thread = .put then some ((system.put nitems).moveProducer thread .ready) else none
  | .ready thread woken =>
    if system.producer thread = .ready then
      (system.ready woken).map fun system => system.moveProducer thread .put
    else none
  | .gate thread => if system.consumer thread = .gate then some (system.gate thread) else none
  | .wake thread => if system.consumer thread = .blocked then some (system.moveConsumer thread .gate) else none
  | .inspect thread => if system.consumer thread = .inspect then some (system.inspect nitems thread) else none

/-! ## What a step does -/

namespace System

/-- Nothing but the places of the threads and `nready` is changed. -/
structure SameData (system system' : System producers consumers) : Prop where
  buf : system'.buf = system.buf
  nput : system'.nput = system.nput
  nval : system'.nval = system.nval
  cnt : system'.cnt = system.cnt
  printed : system'.printed = system.printed

end System

/-- The steps that reach the data, and the others. -/
inductive Touched (nitems : Nat) (system : System producers consumers) :
    Event producers consumers → System producers consumers → Prop where
  | put (thread : Fin producers) {system' : System producers consumers}
      (same : (system.put nitems).SameData system') : Touched nitems system (.put thread) system'
  | returns (thread : Fin consumers) {system' : System producers consumers} (last : nitems ≤ system.cnt + 1)
      (same : ({ system with cnt := system.cnt + 1 } : System producers consumers).SameData system') :
      Touched nitems system (.inspect thread) system'
  | empty (thread : Fin consumers) {system' : System producers consumers} (below : system.cnt + 1 < nitems)
      (zero : system.buf (system.cnt + 1) = 0)
      (same : ({ system with cnt := system.cnt + 1 } : System producers consumers).SameData system') :
      Touched nitems system (.inspect thread) system'
  | prints (thread : Fin consumers) {system' : System producers consumers} (below : system.cnt + 1 < nitems)
      (filled : system.buf (system.cnt + 1) ≠ 0)
      (same : ({ system with
        cnt := system.cnt + 1
        printed := system.printed ++ [(system.cnt + 1, system.buf (system.cnt + 1))]
        buf := Function.update system.buf (system.cnt + 1) 0 } : System producers consumers).SameData system') :
      Touched nitems system (.inspect thread) system'
  | other {event : Event producers consumers} {system' : System producers consumers}
      (notPut : ∀ thread, event ≠ .put thread) (notInspect : ∀ thread, event ≠ .inspect thread)
      (same : system.SameData system') : Touched nitems system event system'

theorem touched {nitems : Nat} {system system' : System producers consumers} {event : Event producers consumers}
    (taken : step nitems system event = some system') : Touched nitems system event system' := by
  cases event with
  | put thread =>
    simp only [step] at taken
    split at taken
    · cases taken
      exact .put thread ⟨rfl, rfl, rfl, rfl, rfl⟩
    · cases taken
  | ready thread woken =>
    -- only `nready` and the waiting consumer change
    refine .other nofun nofun ?_
    simp only [step] at taken
    split at taken
    · obtain ⟨next, readied, rfl⟩ := Option.map_eq_some_iff.mp taken
      simp only [System.ready] at readied
      split at readied
      · split at readied
        · cases readied
          cases woken <;> exact ⟨rfl, rfl, rfl, rfl, rfl⟩
        · cases readied
      · split at readied
        · cases readied
          exact ⟨rfl, rfl, rfl, rfl, rfl⟩
        · cases readied
    · cases taken
  | gate thread =>
    refine .other nofun nofun ?_
    simp only [step] at taken
    split at taken
    · cases taken
      simp only [System.gate]
      split <;> exact ⟨rfl, rfl, rfl, rfl, rfl⟩
    · cases taken
  | wake thread =>
    refine .other nofun nofun ?_
    simp only [step] at taken
    split at taken
    · cases taken
      exact ⟨rfl, rfl, rfl, rfl, rfl⟩
    · cases taken
  | inspect thread =>
    simp only [step] at taken
    split at taken
    · cases taken
      simp only [System.inspect]
      -- the last item is printed, or there is one to print, or none yet
      split
      · rename_i last
        exact .returns thread last ⟨rfl, rfl, rfl, rfl, rfl⟩
      · rename_i below
        split
        · rename_i filled
          exact .prints thread (Nat.lt_of_not_le below) filled ⟨rfl, rfl, rfl, rfl, rfl⟩
        · rename_i zero
          exact .empty thread (Nat.lt_of_not_le below) (Decidable.not_not.mp zero) ⟨rfl, rfl, rfl, rfl, rfl⟩
    · cases taken

/-! ## A run -/

/-- Two items are put, and a consumer prints the second one. -/
theorem prints_second : ∃ (past : List (System 1 1 × Event 1 1)) (before last : System 1 1),
    Execution (step 3) (System.init 1 1) (past ++ [(before, .inspect 0)]) last ∧ last.printed = [(1, 1)] ∧
      before.cnt = 0 ∧ before.nput = 2 ∧ ∀ taken ∈ past, ∀ thread, taken.2 ≠ .inspect thread := by
  have begun : Execution (step 3) (System.init 1 1) [] (System.init 1 1) := .start
  have once := (begun.followedBy (.put 0) rfl).followedBy (.ready 0 none) rfl
  have twice := (once.followedBy (.put 0) rfl).followedBy (.ready 0 none) rfl
  have gated := twice.followedBy (.gate 0) rfl
  refine ⟨_, _, _, gated.followedBy (.inspect 0) rfl, rfl, rfl, rfl, ?_⟩
  simp

end KernelLearning.MutexCond
