import Mathlib.Data.Finset.Basic

/-!
# Readers–writer locks

A lock is held by any number of readers, or by one writer.  A holder is known by name,
so an unlock takes back the hold of its caller.
-/

namespace KernelLearning.Interaction

structure SharedLock (Reader Writer : Type) where
  reading : Finset Reader
  writing : Option Writer
  exclusive : writing = none ∨ reading = ∅

namespace SharedLock

variable {Reader Writer : Type}

def free : SharedLock Reader Writer := ⟨∅, none, .inl rfl⟩

/-- A reader waits while a writer holds the lock. -/
def lockShared [DecidableEq Reader] (lock : SharedLock Reader Writer) (reader : Reader) :
    Option (SharedLock Reader Writer) :=
  match lock.writing with
  | none => some ⟨insert reader lock.reading, none, .inl rfl⟩
  | some _ => none

/-- A writer waits while anybody holds the lock. -/
def lockExclusive [DecidableEq Reader] (lock : SharedLock Reader Writer) (writer : Writer) :
    Option (SharedLock Reader Writer) :=
  match lock.writing with
  | none => if lock.reading = ∅ then some ⟨∅, some writer, .inr rfl⟩ else none
  | some _ => none

def unlockShared [DecidableEq Reader] (lock : SharedLock Reader Writer) (reader : Reader) :
    SharedLock Reader Writer where
  reading := lock.reading.erase reader
  writing := lock.writing
  exclusive := lock.exclusive.imp id fun empty => by rw [empty, Finset.erase_empty]

def unlockExclusive (lock : SharedLock Reader Writer) : SharedLock Reader Writer :=
  ⟨lock.reading, none, .inl rfl⟩

variable {lock lock' : SharedLock Reader Writer}

@[simp] theorem reading_free : (free : SharedLock Reader Writer).reading = ∅ := rfl
@[simp] theorem writing_free : (free : SharedLock Reader Writer).writing = none := rfl

@[simp] theorem reading_unlockShared [DecidableEq Reader] (reader : Reader) :
    (lock.unlockShared reader).reading = lock.reading.erase reader := rfl

@[simp] theorem writing_unlockShared [DecidableEq Reader] (reader : Reader) :
    (lock.unlockShared reader).writing = lock.writing := rfl
@[simp] theorem reading_unlockExclusive : lock.unlockExclusive.reading = lock.reading := rfl
@[simp] theorem writing_unlockExclusive : lock.unlockExclusive.writing = none := rfl

theorem lockShared_eq_some [DecidableEq Reader] {reader : Reader} (locked : lock.lockShared reader = some lock') :
    lock.writing = none ∧ lock'.writing = none ∧ lock'.reading = insert reader lock.reading := by
  simp only [lockShared] at locked
  split at locked
  · rename_i nobody
    obtain rfl := Option.some.inj locked
    exact ⟨nobody, rfl, rfl⟩
  · cases locked

theorem lockExclusive_eq_some [DecidableEq Reader] {writer : Writer} (locked : lock.lockExclusive writer = some lock') :
    lock.writing = none ∧ lock.reading = ∅ ∧ lock'.writing = some writer ∧ lock'.reading = ∅ := by
  simp only [lockExclusive] at locked
  split at locked
  · rename_i nobody
    split at locked
    · rename_i empty
      obtain rfl := Option.some.inj locked
      exact ⟨nobody, empty, rfl, rfl⟩
    · cases locked
  · cases locked

theorem lockShared_isSome [DecidableEq Reader] {reader : Reader} (nobody : lock.writing = none) :
    (lock.lockShared reader).isSome := by
  simp only [lockShared, nobody, Option.isSome_some]

theorem lockExclusive_isSome [DecidableEq Reader] {writer : Writer} (nobody : lock.writing = none)
    (empty : lock.reading = ∅) :
    (lock.lockExclusive writer).isSome := by
  simp only [lockExclusive, nobody, empty, if_true, Option.isSome_some]

/-- No reader is there while a writer is. -/
theorem not_mem_reading {writer : Writer} (held : lock.writing = some writer) (reader : Reader) :
    reader ∉ lock.reading := by
  cases lock.exclusive with
  | inl nobody =>
    rw [nobody] at held
    cases held
  | inr empty => simp [empty]

end SharedLock

end KernelLearning.Interaction
