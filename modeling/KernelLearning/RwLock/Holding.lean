import KernelLearning.RwLock.Threads

/-!
# Who holds the lock

The threads between their lock and their unlock are those that the lock knows.  So a
writer is there alone, and no order of the operations leads to a deadlock.
-/

namespace KernelLearning.RwLock

open CSemantics Interaction

variable {readercount writercount : Nat}

def ReaderPlace.inside : ReaderPlace → Bool
  | .print _ | .unlock => true
  | .lock | .returned => false

def WriterPlace.inside : WriterPlace → Bool
  | .gets | .seek _ _ | .copy _ _ | .unlock => true
  | .lock | .returned => false

structure Locked (system : System readercount writercount) : Prop where
  readers : ∀ id, (system.reader id).inside = true ↔ id ∈ system.rwlock.reading
  writers : ∀ id, (system.writer id).inside = true ↔ system.rwlock.writing = some id

theorem init_locked (lines : List (List Byte)) : Locked (System.init lines : System readercount writercount) where
  readers := fun id => by simp [System.init, ReaderPlace.inside]
  writers := fun id => by simp [System.init, WriterPlace.inside]

variable {system system' : System readercount writercount}

/-- A reader moves, and the lock changes for nobody else. -/
theorem Locked.setReader (locked : Locked system) (id : Fin readercount) (place : ReaderPlace)
    (writers : system'.writer = system.writer) (writing : system'.rwlock.writing = system.rwlock.writing)
    (readers : system'.reader = Function.update system.reader id place)
    (others : ∀ other, other ≠ id → (other ∈ system'.rwlock.reading ↔ other ∈ system.rwlock.reading))
    (self : place.inside = true ↔ id ∈ system'.rwlock.reading) : Locked system' where
  readers := by
    intro other
    rw [readers]
    by_cases same : other = id
    · rw [same, Function.update_self]
      exact self
    · rw [Function.update_of_ne same, others other same]
      exact locked.readers other
  writers := by
    rw [writers, writing]
    exact locked.writers

theorem Locked.setWriter (locked : Locked system) (id : Fin writercount) (place : WriterPlace)
    (readers : system'.reader = system.reader) (reading : system'.rwlock.reading = system.rwlock.reading)
    (writers : system'.writer = Function.update system.writer id place)
    (others : ∀ other, other ≠ id → (system'.rwlock.writing = some other ↔ system.rwlock.writing = some other))
    (self : place.inside = true ↔ system'.rwlock.writing = some id) : Locked system' where
  readers := by
    rw [readers, reading]
    exact locked.readers
  writers := by
    intro other
    rw [writers]
    by_cases same : other = id
    · rw [same, Function.update_self]
      exact self
    · rw [Function.update_of_ne same, others other same]
      exact locked.writers other

theorem reader_locked {id : Fin readercount} (locked : Locked system) (moved : ReaderStep id system system') :
    Locked system' := by
  have inside : ∀ place, system.reader id = place → place.inside = true → id ∈ system.rwlock.reading := by
    intro place here within
    rw [← locked.readers, here]
    exact within
  cases moved with
  | lock place granted =>
    obtain ⟨nobody, still, reading⟩ := SharedLock.lockShared_eq_some granted
    refine locked.setReader id (.print []) rfl (still.trans nobody.symm) rfl ?_ ?_
    · intro other different
      simp [System.setReader, reading, different]
    · simp [System.setReader, reading, ReaderPlace.inside]
  | outside place here => exact ⟨locked.readers, locked.writers⟩
  | finish place here =>
    refine locked.setReader id .unlock rfl rfl rfl (fun other _ => Iff.rfl) ?_
    exact iff_of_true rfl (inside _ place rfl)
  | @character text byte place here nonzero =>
    refine locked.setReader id (.print (text ++ [byte])) rfl rfl rfl (fun other _ => Iff.rfl) ?_
    exact iff_of_true rfl (inside _ place rfl)
  | unlock place =>
    refine locked.setReader id .returned rfl rfl rfl ?_ ?_
    · intro other different
      simp [System.setReader, different]
    · simp [System.setReader, ReaderPlace.inside]

theorem writer_locked {stack : List Byte} {id : Fin writercount} (locked : Locked system)
    (moved : WriterStep stack id system system') : Locked system' := by
  have inside : ∀ place, system.writer id = place → place.inside = true → system.rwlock.writing = some id := by
    intro place here within
    rw [← locked.writers, here]
    exact within
  cases moved with
  | lock place granted =>
    obtain ⟨nobody, empty, holder, reading⟩ := SharedLock.lockExclusive_eq_some granted
    refine locked.setWriter id .gets rfl (reading.trans empty.symm) rfl ?_ ?_
    · intro other different
      simp [System.setWriter, holder, nobody, different.symm]
    · simp [System.setWriter, holder, WriterPlace.inside]
  | long | endless | exhausted | full => exact ⟨locked.readers, locked.writers⟩
  | @gets data stdin place got =>
    refine locked.setWriter id (.seek data 0) rfl rfl rfl (fun other _ => Iff.rfl) ?_
    exact iff_of_true rfl (inside _ place rfl)
  | @found data dest place here =>
    refine locked.setWriter id (.copy data dest) rfl rfl rfl (fun other _ => Iff.rfl) ?_
    exact iff_of_true rfl (inside _ place rfl)
  | @seek data dest byte place here nonzero =>
    refine locked.setWriter id (.seek data (dest + 1)) rfl rfl rfl (fun other _ => Iff.rfl) ?_
    exact iff_of_true rfl (inside _ place rfl)
  | @character byte src dest place room nonzero =>
    refine locked.setWriter id (.copy src (dest + 1)) rfl rfl rfl (fun other _ => Iff.rfl) ?_
    exact iff_of_true rfl (inside _ place rfl)
  | terminate place room =>
    refine locked.setWriter id .unlock rfl rfl rfl (fun other _ => Iff.rfl) ?_
    exact iff_of_true rfl (inside _ place rfl)
  | unlock place =>
    refine locked.setWriter id .returned rfl rfl rfl ?_ ?_
    · intro other different
      have holder := inside _ place rfl
      simp [System.setWriter, holder, different.symm]
    · simp [System.setWriter, WriterPlace.inside]

theorem step_locked {stack : Fin writercount → List Byte} (locked : Locked system)
    (event : Event readercount writercount) (taken : step stack system event = some system') : Locked system' := by
  cases event with
  | reader id =>
    simp only [step] at taken
    split at taken
    · cases taken
    · exact reader_locked locked (reader_cases taken)
  | writer id =>
    simp only [step] at taken
    split at taken
    · cases taken
    · exact writer_locked locked (writer_cases taken)

/-! ## No deadlock -/

theorem reader_isSome {id : Fin readercount} (inside : (system.reader id).inside = true) :
    ∃ system', reader id system = some system' := by
  rw [← Option.ne_none_iff_exists']
  intro stuck
  simp only [reader] at stuck
  split at stuck
  · rename_i place
    simp [place, ReaderPlace.inside] at inside
  · split at stuck
    · cases stuck
    · split at stuck <;> cases stuck
  · cases stuck
  · rename_i place
    simp [place, ReaderPlace.inside] at inside

theorem writer_isSome {stack : List Byte} {id : Fin writercount} (inside : (system.writer id).inside = true) :
    ∃ system', writer stack id system = some system' := by
  rw [← Option.ne_none_iff_exists']
  intro stuck
  simp only [writer] at stuck
  split at stuck
  · rename_i place
    simp [place, WriterPlace.inside] at inside
  · split at stuck <;> cases stuck
  · split at stuck <;> cases stuck
  · cases stuck
  · split at stuck <;> cases stuck
  · cases stuck
  · rename_i place
    simp [place, WriterPlace.inside] at inside

theorem ReaderPlace.eq_of_not_inside {place : ReaderPlace} (outside : place.inside = false) :
    place = .lock ∨ place = .returned := by
  cases place with
  | lock => exact .inl rfl
  | returned => exact .inr rfl
  | print _ => cases outside
  | unlock => cases outside

theorem WriterPlace.eq_of_not_inside {place : WriterPlace} (outside : place.inside = false) :
    place = .lock ∨ place = .returned := by
  cases place with
  | lock => exact .inl rfl
  | returned => exact .inr rfl
  | gets => cases outside
  | seek _ _ => cases outside
  | copy _ _ => cases outside
  | unlock => cases outside

/-- If nobody holds the lock, whoever has not returned can take it. -/
theorem moves_of_outside {stack : Fin writercount → List Byte} (locked : Locked system)
    (running : system.overrun = false) (readers : ∀ id, (system.reader id).inside = false)
    (writers : ∀ id, (system.writer id).inside = false) :
    ((∀ id, system.reader id = .returned) ∧ ∀ id, system.writer id = .returned) ∨
      ∃ event system', step stack system event = some system' := by
  have nobody : system.rwlock.writing = none := by
    rw [Option.eq_none_iff_forall_ne_some]
    intro id holder
    have within := (locked.writers id).mpr holder
    rw [writers id] at within
    cases within
  have empty : system.rwlock.reading = ∅ := by
    rw [Finset.eq_empty_iff_forall_notMem]
    intro id member
    have within := (locked.readers id).mpr member
    rw [readers id] at within
    cases within
  by_cases waiting : ∃ id, system.reader id = .lock
  · obtain ⟨id, place⟩ := waiting
    have free : (system.rwlock.lockShared id).isSome := SharedLock.lockShared_isSome nobody
    obtain ⟨rwlock, granted⟩ := Option.isSome_iff_exists.mp free
    exact .inr ⟨.reader id, _, by simp only [step, running, reader, place, granted]; rfl⟩
  · by_cases waitingWriter : ∃ id, system.writer id = .lock
    · obtain ⟨id, place⟩ := waitingWriter
      have free : (system.rwlock.lockExclusive id).isSome := SharedLock.lockExclusive_isSome nobody empty
      obtain ⟨rwlock, granted⟩ := Option.isSome_iff_exists.mp free
      exact .inr ⟨.writer id, _, by simp only [step, running, writer, place, granted]; rfl⟩
    · refine .inl ⟨fun id => ?_, fun id => ?_⟩
      · exact (ReaderPlace.eq_of_not_inside (readers id)).resolve_left fun place => waiting ⟨id, place⟩
      · exact (WriterPlace.eq_of_not_inside (writers id)).resolve_left fun place => waitingWriter ⟨id, place⟩

theorem moves_of_locked {stack : Fin writercount → List Byte} (locked : Locked system)
    (running : system.overrun = false) :
    ((∀ id, system.reader id = .returned) ∧ ∀ id, system.writer id = .returned) ∨
      ∃ event system', step stack system event = some system' := by
  by_cases reading : ∃ id, (system.reader id).inside = true
  · obtain ⟨id, inside⟩ := reading
    obtain ⟨system', moved⟩ := reader_isSome inside
    exact .inr ⟨.reader id, system', by simp only [step, running]; exact moved⟩
  · by_cases writing : ∃ id, (system.writer id).inside = true
    · obtain ⟨id, inside⟩ := writing
      obtain ⟨system', moved⟩ : ∃ system', writer (stack id) id system = some system' := writer_isSome inside
      exact .inr ⟨.writer id, system', by simp only [step, running]; exact moved⟩
    · simp only [not_exists, Bool.not_eq_true] at reading writing
      exact moves_of_outside locked running reading writing

/-- A writer is inside alone, and until all threads have returned one of them can go on. -/
theorem exclusive_and_live {stack : Fin writercount → List Byte} {lines : List (List Byte)}
    {past : List (System readercount writercount × Event readercount writercount)}
    {last : System readercount writercount} (execution : Execution (step stack) (System.init lines) past last) :
    (∀ id, (last.writer id).inside = true →
      (∀ other, (last.reader other).inside = false) ∧ ∀ other, other ≠ id → (last.writer other).inside = false) ∧
    (last.overrun = false →
      ((∀ id, last.reader id = .returned) ∧ ∀ id, last.writer id = .returned) ∨
        ∃ event last', step stack last event = some last') := by
  have locked := execution.always Locked (init_locked lines) fun _ event _ locked => step_locked locked event
  refine ⟨?_, moves_of_locked locked⟩
  intro id inside
  have holder := (locked.writers id).mp inside
  constructor
  · intro other
    rw [← Bool.not_eq_true, locked.readers]
    exact SharedLock.not_mem_reading holder other
  · intro other different
    rw [← Bool.not_eq_true, locked.writers, holder, Option.some.injEq]
    exact different.symm

/-- A writer has locked. -/
theorem exclusive_and_live_locked : ∃ past last,
    Execution (step fun _ : Fin 1 => []) (System.init [] : System 1 1) past last ∧
      (last.writer 0).inside = true ∧ (last.reader 0).inside = false ∧
        ∃ event last', step (fun _ : Fin 1 => []) last event = some last' := by
  have performed : ∃ last, perform (step fun _ : Fin 1 => []) (System.init [] : System 1 1) [.writer 0] =
      some last ∧ last.overrun = false ∧ last.writer 0 = .gets := ⟨_, rfl, rfl, rfl⟩
  obtain ⟨last, performed, running, place⟩ := performed
  obtain ⟨past, _, execution⟩ := execution_of_perform performed
  obtain ⟨alone, live⟩ := exclusive_and_live execution
  have inside : (last.writer 0).inside = true := by rw [place]; rfl
  refine ⟨past, last, execution, inside, (alone 0 inside).1 0, (live running).resolve_left ?_⟩
  intro returned
  have nowhere := returned.2 0
  rw [place] at nowhere
  cases nowhere

end KernelLearning.RwLock
