import Mathlib.Data.Finset.Card
import Mathlib.Data.Fintype.Basic
import KernelLearning.Interaction.Executions
import KernelLearning.Interaction.SharedLock
import KernelLearning.CSemantics.Input

/-!
# A text behind a readers–writer lock

`reader` and `writer` of the readers–writer example.  A step is a lock operation, a
`gets`, or one byte that `strcat` or `printf` reads or writes, so that the threads may
come between any two bytes.  What follows an access outside of an object is not
described: the step that makes it is the last one.
-/

namespace KernelLearning.RwLock

open CSemantics Interaction

def MAXDATA : Nat := 1024

/-- Where `reader` is: before it locks, in `printf` after the characters of `%s` printed so far, and
before it unlocks. -/
inductive ReaderPlace where
  | lock
  | print (text : List Byte)
  | unlock
  | returned

/-- Where `writer` is: before it locks, before `gets`, in `strcat` looking for the end of the text, in
`strcat` with what is left of the object it copies from, and before it unlocks. -/
inductive WriterPlace where
  | lock
  | gets
  | seek (data : List Byte) (dest : Nat)
  | copy (src : List Byte) (dest : Nat)
  | unlock
  | returned

/-- `rw_res_t`, the lines that are still to be typed, the messages printed, and the threads. -/
structure System (readercount writercount : Nat) where
  rwlock : SharedLock (Fin readercount) (Fin writercount)
  data : List Byte
  stdin : List (List Byte)
  printed : List (List Byte)
  reader : Fin readercount → ReaderPlace
  writer : Fin writercount → WriterPlace
  overrun : Bool

variable {readercount writercount : Nat}

namespace System

/-- `rw_res_t` is static, so its text is zeroed. -/
def init (lines : List (List Byte)) : System readercount writercount where
  rwlock := .free
  data := List.replicate MAXDATA 0
  stdin := lines
  printed := []
  reader := fun _ => .lock
  writer := fun _ => .lock
  overrun := false

def setReader (system : System readercount writercount) (id : Fin readercount) (place : ReaderPlace) :
    System readercount writercount :=
  { system with reader := Function.update system.reader id place }

def setWriter (system : System readercount writercount) (id : Fin writercount) (place : WriterPlace) :
    System readercount writercount :=
  { system with writer := Function.update system.writer id place }

end System

inductive Event (readercount writercount : Nat) where
  | reader (id : Fin readercount)
  | writer (id : Fin writercount)

/-- The next operation of `reader`; `none` if it waits or has returned. -/
def reader (id : Fin readercount) (system : System readercount writercount) :
    Option (System readercount writercount) :=
  match system.reader id with
  | .lock => (system.rwlock.lockShared id).map fun rwlock => { system with rwlock := rwlock }.setReader id (.print [])
  | .print text =>
    match system.data[text.length]? with
    | none => some { system with overrun := true }
    | some byte =>
      if byte = 0 then some ({ system with printed := system.printed ++ [text] }.setReader id .unlock)
      else some (system.setReader id (.print (text ++ [byte])))
  | .unlock => some ({ system with rwlock := system.rwlock.unlockShared id }.setReader id .returned)
  | .returned => none

/-- The next operation of `writer`, whose array `data` holds `stack` at first. -/
def writer (stack : List Byte) (id : Fin writercount) (system : System readercount writercount) :
    Option (System readercount writercount) :=
  match system.writer id with
  | .lock => (system.rwlock.lockExclusive id).map fun rwlock => { system with rwlock := rwlock }.setWriter id .gets
  | .gets =>
    match gets stack system.stdin with
    | none => some { system with overrun := true }
    | some (data, stdin) => some ({ system with stdin := stdin }.setWriter id (.seek data 0))
  | .seek data dest =>
    match system.data[dest]? with
    | none => some { system with overrun := true }
    | some byte => some (system.setWriter id (if byte = 0 then .copy data dest else .seek data (dest + 1)))
  | .copy [] _ => some { system with overrun := true }
  | .copy (byte :: src) dest =>
    if dest < system.data.length then
      some ({ system with data := system.data.set dest byte }.setWriter id
        (if byte = 0 then .unlock else .copy src (dest + 1)))
    else some { system with overrun := true }
  | .unlock => some ({ system with rwlock := system.rwlock.unlockExclusive }.setWriter id .returned)
  | .returned => none

/-- The arrays of the writers hold anything at first. -/
def step (stack : Fin writercount → List Byte) (system : System readercount writercount) :
    Event readercount writercount → Option (System readercount writercount)
  | .reader id => if system.overrun then none else RwLock.reader id system
  | .writer id => if system.overrun then none else RwLock.writer (stack id) id system

/-! ## What an operation does -/

variable {system system' : System readercount writercount}

inductive ReaderStep (id : Fin readercount) (system : System readercount writercount) :
    System readercount writercount → Prop where
  | lock {rwlock} (place : system.reader id = .lock) (locked : system.rwlock.lockShared id = some rwlock) :
      ReaderStep id system ({ system with rwlock := rwlock }.setReader id (.print []))
  | outside {text} (place : system.reader id = .print text) (here : system.data[text.length]? = none) :
      ReaderStep id system { system with overrun := true }
  | finish {text} (place : system.reader id = .print text) (here : system.data[text.length]? = some 0) :
      ReaderStep id system ({ system with printed := system.printed ++ [text] }.setReader id .unlock)
  | character {text byte} (place : system.reader id = .print text)
      (here : system.data[text.length]? = some byte) (nonzero : byte ≠ 0) :
      ReaderStep id system (system.setReader id (.print (text ++ [byte])))
  | unlock (place : system.reader id = .unlock) :
      ReaderStep id system ({ system with rwlock := system.rwlock.unlockShared id }.setReader id .returned)

theorem reader_cases {id : Fin readercount} (moved : reader id system = some system') :
    ReaderStep id system system' := by
  simp only [reader] at moved
  split at moved
  · rename_i place
    obtain ⟨rwlock, locked, rfl⟩ := Option.map_eq_some_iff.mp moved
    exact .lock place locked
  · rename_i text place
    split at moved
    · rename_i here
      obtain rfl := Option.some.inj moved
      exact .outside place here
    · rename_i byte here
      split at moved
      · rename_i zero
        obtain rfl := Option.some.inj moved
        exact .finish place (by rw [here, zero])
      · rename_i nonzero
        obtain rfl := Option.some.inj moved
        exact .character place here nonzero
  · rename_i place
    obtain rfl := Option.some.inj moved
    exact .unlock place
  · cases moved

inductive WriterStep (stack : List Byte) (id : Fin writercount) (system : System readercount writercount) :
    System readercount writercount → Prop where
  | lock {rwlock} (place : system.writer id = .lock) (locked : system.rwlock.lockExclusive id = some rwlock) :
      WriterStep stack id system ({ system with rwlock := rwlock }.setWriter id .gets)
  | long (place : system.writer id = .gets) (got : gets stack system.stdin = none) :
      WriterStep stack id system { system with overrun := true }
  | gets {data stdin} (place : system.writer id = .gets) (got : gets stack system.stdin = some (data, stdin)) :
      WriterStep stack id system ({ system with stdin := stdin }.setWriter id (.seek data 0))
  | endless {data dest} (place : system.writer id = .seek data dest) (here : system.data[dest]? = none) :
      WriterStep stack id system { system with overrun := true }
  | found {data dest} (place : system.writer id = .seek data dest) (here : system.data[dest]? = some 0) :
      WriterStep stack id system (system.setWriter id (.copy data dest))
  | seek {data dest byte} (place : system.writer id = .seek data dest) (here : system.data[dest]? = some byte)
      (nonzero : byte ≠ 0) :
      WriterStep stack id system (system.setWriter id (.seek data (dest + 1)))
  | exhausted {dest} (place : system.writer id = .copy [] dest) :
      WriterStep stack id system { system with overrun := true }
  | full {byte src dest} (place : system.writer id = .copy (byte :: src) dest) (past : system.data.length ≤ dest) :
      WriterStep stack id system { system with overrun := true }
  | character {byte src dest} (place : system.writer id = .copy (byte :: src) dest)
      (inside : dest < system.data.length) (nonzero : byte ≠ 0) :
      WriterStep stack id system
        ({ system with data := system.data.set dest byte }.setWriter id (.copy src (dest + 1)))
  | terminate {src dest} (place : system.writer id = .copy (0 :: src) dest) (inside : dest < system.data.length) :
      WriterStep stack id system ({ system with data := system.data.set dest 0 }.setWriter id .unlock)
  | unlock (place : system.writer id = .unlock) :
      WriterStep stack id system ({ system with rwlock := system.rwlock.unlockExclusive }.setWriter id .returned)

theorem writer_cases {stack : List Byte} {id : Fin writercount} (moved : writer stack id system = some system') :
    WriterStep stack id system system' := by
  simp only [writer] at moved
  split at moved
  · rename_i place
    obtain ⟨rwlock, locked, rfl⟩ := Option.map_eq_some_iff.mp moved
    exact .lock place locked
  · rename_i place
    split at moved
    · rename_i got
      obtain rfl := Option.some.inj moved
      exact .long place got
    · rename_i data stdin got
      obtain rfl := Option.some.inj moved
      exact .gets place got
  · rename_i data dest place
    split at moved
    · rename_i here
      obtain rfl := Option.some.inj moved
      exact .endless place here
    · rename_i byte here
      obtain rfl := Option.some.inj moved
      split
      · rename_i zero
        exact .found place (by rw [here, zero])
      · rename_i nonzero
        exact .seek place here nonzero
  · rename_i dest place
    obtain rfl := Option.some.inj moved
    exact .exhausted place
  · rename_i byte src dest place
    split at moved
    · rename_i inside
      obtain rfl := Option.some.inj moved
      split
      · rename_i zero
        rw [zero] at place ⊢
        exact .terminate place inside
      · rename_i nonzero
        exact .character place inside nonzero
    · rename_i past
      obtain rfl := Option.some.inj moved
      exact .full place (Nat.le_of_not_lt past)
  · rename_i place
    obtain rfl := Option.some.inj moved
    exact .unlock place
  · cases moved

end KernelLearning.RwLock
