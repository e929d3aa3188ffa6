import KernelLearning.SharedMemory.Processes

/-!
# What is printed

Nobody but the writer that made a memory object writes into it.  So a reader prints what
the memory held from before, or zero, or the count of the writer that made the memory it
opened; and that count if the writer had stored it when the reader opened the memory.
-/

namespace KernelLearning.SharedMemory

open CSemantics Interaction

variable {processes : Nat}

def Place.unopened : Place → Bool
  | .shmUnlink | .shmOpen => true
  | _ => false

/-- The count has been stored, if the process is a writer. -/
def Place.stored : Place → Bool
  | .print | .semPost | .returned => true
  | _ => false

/-- The memory object is one that the process made. -/
def Owns (args : Fin processes → Args) (system : System processes) (writer : Fin processes) (id : Nat) : Prop :=
  (args writer).count.isSome = true ∧ (system.process writer).ptr = some id

/-- Where the count comes from that a process prints in this state.  A writer prints its own.  A reader prints
what its object held from the start, or the count that the writer of its object has stored, or the zero that
is there before. -/
def Explained (args : Fin processes → Args) (kernel : Kernel) (system : System processes) (process : Fin processes)
    (value : Int) : Prop :=
  match (args process).count with
  | some count => value = atoi count
  | none =>
    ∃ id, (system.process process).ptr = some id ∧
      (kernel.shm.entry (args process).shm = some id ∧ value = (kernel.shm.content id).getD 0 ∨
        ∃ writer count, (args writer).shm = (args process).shm ∧ (args writer).count = some count ∧
          (system.process writer).ptr = some id ∧
          value = if (system.process writer).place.stored then atoi count else 0)

/-- The memory objects: those of `kernel`, which nobody writes to, and those that were made since. -/
structure Values (args : Fin processes → Args) (kernel : Kernel) (system : System processes) : Prop where
  unopened : ∀ process, (system.process process).place.unopened = true → (system.process process).ptr = none
  later : kernel.shm.created ≤ system.kernel.shm.created
  fresh : ∀ writer id, Owns args system writer id → kernel.shm.created ≤ id ∧ id < system.kernel.shm.created
  sole : ∀ writer other id, Owns args system writer id → Owns args system other id → writer = other
  entry : ∀ name id, system.kernel.shm.entry name = some id → kernel.shm.entry name = some id ∨
    ∃ writer, (args writer).shm = name ∧ Owns args system writer id
  attached : ∀ process id, (args process).count = none → (system.process process).ptr = some id →
    kernel.shm.entry (args process).shm = some id ∨
      ∃ writer, (args writer).shm = (args process).shm ∧ Owns args system writer id
  old : ∀ id < kernel.shm.created, system.kernel.shm.content id = kernel.shm.content id ∨
    kernel.shm.content id = none ∧ system.kernel.shm.content id = some 0
  stored : ∀ writer id count, (args writer).count = some count → (system.process writer).ptr = some id →
    (system.process writer).place.stored = true → system.kernel.shm.content id = some (atoi count)
  unstored : ∀ writer id, Owns args system writer id → (system.process writer).place.stored = false →
    ∀ value, system.kernel.shm.content id = some value → value = 0

theorem init_values (args : Fin processes → Args) (kernel : Kernel) : Values args kernel (System.init args kernel) where
  unopened := fun _ _ => rfl
  later := Nat.le_refl _
  fresh := fun _ _ owns => nomatch owns.2
  sole := fun _ _ _ owns => nomatch owns.2
  entry := fun _ _ here => .inl here
  attached := fun _ _ _ ptr => nomatch ptr
  old := fun _ _ => .inl rfl
  stored := fun _ _ _ _ ptr => nomatch ptr
  unstored := fun _ _ owns => nomatch owns.2

variable {args : Fin processes → Args} {kernel : Kernel} {system system' : System processes}

/-- A step that makes no object and opens none, with what it does to the contents. -/
theorem Values.still (values : Values args kernel system)
    (created : system'.kernel.shm.created = system.kernel.shm.created)
    (entry : ∀ name id, system'.kernel.shm.entry name = some id → system.kernel.shm.entry name = some id)
    (ptr : ∀ process, (system'.process process).ptr = (system.process process).ptr)
    (unopened : ∀ process, (system'.process process).place.unopened = true →
      (system.process process).place.unopened = true)
    (old : ∀ id < kernel.shm.created, system'.kernel.shm.content id = kernel.shm.content id ∨
      kernel.shm.content id = none ∧ system'.kernel.shm.content id = some 0)
    (stored : ∀ writer id count, (args writer).count = some count → (system.process writer).ptr = some id →
      (system'.process writer).place.stored = true → system'.kernel.shm.content id = some (atoi count))
    (unstored : ∀ writer id, Owns args system writer id → (system'.process writer).place.stored = false →
      ∀ value, system'.kernel.shm.content id = some value → value = 0) :
    Values args kernel system' := by
  have owns : ∀ writer id, Owns args system' writer id ↔ Owns args system writer id := by
    intro writer id
    rw [Owns, Owns, ptr]
  refine ⟨?_, ?_, ?_, ?_, ?_, ?_, old, ?_, ?_⟩
  · intro process here
    rw [ptr]
    exact values.unopened process (unopened process here)
  · rw [created]
    exact values.later
  · intro writer id own
    rw [created]
    exact values.fresh writer id ((owns writer id).mp own)
  · intro writer other id own otherOwn
    exact values.sole writer other id ((owns writer id).mp own) ((owns other id).mp otherOwn)
  · intro name id here
    simp only [owns]
    exact values.entry name id (entry name id here)
  · intro process id reads here
    simp only [owns]
    rw [ptr] at here
    exact values.attached process id reads here
  · intro writer id count writes here done
    rw [ptr] at here
    exact stored writer id count writes here done
  · intro writer id own notDone
    exact unstored writer id ((owns writer id).mp own) notDone

/-- A step that makes no object, opens none, and writes into none. -/
theorem Values.quiet (values : Values args kernel system)
    (created : system'.kernel.shm.created = system.kernel.shm.created)
    (content : system'.kernel.shm.content = system.kernel.shm.content)
    (entry : ∀ name id, system'.kernel.shm.entry name = some id → system.kernel.shm.entry name = some id)
    (ptr : ∀ process, (system'.process process).ptr = (system.process process).ptr)
    (stored : ∀ process, (args process).count.isSome = true →
      (system'.process process).place.stored = (system.process process).place.stored)
    (unopened : ∀ process, (system'.process process).place.unopened = true →
      (system.process process).place.unopened = true) :
    Values args kernel system' := by
  refine values.still created entry ptr unopened ?_ ?_ ?_
  · rw [content]
    exact values.old
  · intro writer id count writes here done
    rw [stored writer (by rw [writes]; rfl)] at done
    rw [content]
    exact values.stored writer id count writes here done
  · intro writer id own notDone
    rw [stored writer own.1] at notDone
    rw [content]
    exact values.unstored writer id own notDone

/-! ## Making, attaching and writing -/

variable {mover : Fin processes} {process' : Process}

/-- A step that opens an object. -/
theorem Values.opened (values : Values args kernel system) {object : Nat}
    (updated : system'.process = Function.update system.process mover
      { system.process mover with place := .ftruncate, ptr := some object })
    (place : (system.process mover).place = .shmOpen)
    (later : system.kernel.shm.created ≤ system'.kernel.shm.created)
    (content : ∀ other < system.kernel.shm.created,
      system'.kernel.shm.content other = system.kernel.shm.content other)
    (new : (args mover).count.isSome = true → object = system.kernel.shm.created ∧
      system.kernel.shm.created < system'.kernel.shm.created ∧ system'.kernel.shm.content object = none)
    (attached : (args mover).count = none → system.kernel.shm.entry (args mover).shm = some object)
    (entry : ∀ name other, system'.kernel.shm.entry name = some other → system.kernel.shm.entry name = some other ∨
      (args mover).shm = name ∧ (args mover).count.isSome = true ∧ other = object) :
    Values args kernel system' := by
  have before := values.unopened mover (by rw [place]; rfl)
  have self : system'.process mover = { system.process mover with place := .ftruncate, ptr := some object } := by
    rw [updated, Function.update_self]
  have others : ∀ other, other ≠ mover → system'.process other = system.process other := by
    intro other different
    rw [updated, Function.update_of_ne different]
  -- what was owned before still is, and the process may have come to own the object
  have owned : ∀ {writer other}, Owns args system writer other → Owns args system' writer other := by
    intro writer other own
    by_cases same : writer = mover
    · rw [same, Owns, before] at own
      cases own.2
    · exact ⟨own.1, by rw [others writer same]; exact own.2⟩
  have owns : ∀ {writer other}, Owns args system' writer other → Owns args system writer other ∨
      writer = mover ∧ (args mover).count.isSome = true ∧ other = object := by
    intro writer other own
    by_cases same : writer = mover
    · rw [same, Owns, self] at own
      exact .inr ⟨same, own.1, (Option.some.inj own.2).symm⟩
    · rw [Owns, others writer same] at own
      exact .inl own
  have stored : ∀ other, (system'.process other).place.stored = true → other ≠ mover := by
    rintro other done rfl
    rw [self] at done
    cases done
  refine ⟨?_, Nat.le_trans values.later later, ?_, ?_, ?_, ?_, ?_, ?_, ?_⟩
  · intro other here
    by_cases same : other = mover
    · rw [same, self] at here
      cases here
    · rw [others other same] at here ⊢
      exact values.unopened other here
  · intro writer other own
    rcases owns own with own | ⟨_, writes, rfl⟩
    · exact (values.fresh writer other own).imp id fun below => Nat.lt_of_lt_of_le below later
    · obtain ⟨rfl, more, _⟩ := new writes
      exact ⟨values.later, more⟩
  · intro writer other object' own otherOwn
    -- an object that somebody owned before is not the one that was made now
    have apart : ∀ {process}, (args mover).count.isSome = true → ¬ Owns args system process object := by
      intro process writes own
      have below := (values.fresh process object own).2
      rw [(new writes).1] at below
      exact absurd below (Nat.lt_irrefl _)
    rcases owns own with before | now <;> rcases owns otherOwn with otherBefore | otherNow
    · exact values.sole writer other object' before otherBefore
    · rw [otherNow.2.2] at before
      exact absurd before (apart otherNow.2.1)
    · rw [now.2.2] at otherBefore
      exact absurd otherBefore (apart now.2.1)
    · rw [now.1, otherNow.1]
  · intro name other here
    rcases entry name other here with here | ⟨same, writes, rfl⟩
    · exact (values.entry name other here).imp_right fun ⟨writer, same, own⟩ => ⟨writer, same, owned own⟩
    · exact .inr ⟨mover, same, writes, by rw [self]⟩
  · intro other object' reads ptr
    have source : kernel.shm.entry (args other).shm = some object' ∨
        ∃ writer, (args writer).shm = (args other).shm ∧ Owns args system writer object' := by
      by_cases same : other = mover
      · rw [same, self] at ptr
        cases ptr
        rw [same] at reads ⊢
        exact values.entry _ _ (attached reads)
      · rw [others other same] at ptr
        exact values.attached other object' reads ptr
    exact source.imp_right fun ⟨writer, same, own⟩ => ⟨writer, same, owned own⟩
  · intro other below
    rw [content other (Nat.lt_of_lt_of_le below values.later)]
    exact values.old other below
  · intro writer other count writes ptr done
    have different := stored writer done
    rw [others writer different] at ptr done
    rw [content other (values.fresh writer other ⟨by rw [writes]; rfl, ptr⟩).2]
    exact values.stored writer other count writes ptr done
  · intro writer other own notDone value here
    rcases owns own with own | ⟨rfl, writes, rfl⟩
    · have different : writer ≠ mover := by
        rintro rfl
        rw [Owns, before] at own
        cases own.2
      rw [content other (values.fresh writer other own).2] at here
      rw [others writer different] at notDone
      exact values.unstored writer other own notDone value here
    · rw [(new writes).2.2] at here
      cases here

/-- `ftruncate` fills an object of size zero with a zero, and leaves others as they are. -/
theorem Values.truncated (values : Values args kernel system) {object : Nat}
    (shm : system'.kernel.shm =
      system.kernel.shm.write object (some ((system.kernel.shm.content object).getD 0)))
    (ptr : ∀ process, (system'.process process).ptr = (system.process process).ptr)
    (stored : ∀ process, (system'.process process).place.stored = (system.process process).place.stored)
    (unopened : ∀ process, (system'.process process).place.unopened = true →
      (system.process process).place.unopened = true) : Values args kernel system' := by
  have content : ∀ other, system'.kernel.shm.content other = system.kernel.shm.content other ∨
      system.kernel.shm.content other = none ∧ system'.kernel.shm.content other = some 0 := by
    intro other
    simp only [shm, Registry.content_write, Function.update_apply]
    split
    · rename_i same
      rw [same]
      cases system.kernel.shm.content object with
      | none => exact .inr ⟨rfl, rfl⟩
      | some value => exact .inl rfl
    · exact .inl rfl
  refine values.still (by rw [shm]; rfl) (by rw [shm]; exact fun _ _ here => here) ptr unopened ?_ ?_ ?_
  · intro other below
    rcases content other with same | ⟨empty, zero⟩
    · rw [same]
      exact values.old other below
    · rcases values.old other below with still | ⟨_, filled⟩
      · exact .inr ⟨still.symm.trans empty, zero⟩
      · rw [empty] at filled
        cases filled
  · intro writer other count writes here done
    rw [stored] at done
    have before := values.stored writer other count writes here done
    rcases content other with same | ⟨empty, _⟩
    · rw [same, before]
    · rw [before] at empty
      cases empty
  · intro writer other own notDone value here
    rw [stored] at notDone
    rcases content other with same | ⟨_, zero⟩
    · rw [same] at here
      exact values.unstored writer other own notDone value here
    · rw [zero] at here
      exact (Option.some.inj here).symm

/-- A writer stores its count in the object that it made. -/
theorem Values.written (values : Values args kernel system) {object : Nat} {count : List Byte}
    (writes : (args mover).count = some count) (own : (system.process mover).ptr = some object)
    (shm : system'.kernel.shm = system.kernel.shm.write object (some (atoi count)))
    (updated : system'.process = Function.update system.process mover ((system.process mover).goto .print)) :
    Values args kernel system' := by
  have owner : Owns args system mover object := ⟨by rw [writes]; rfl, own⟩
  have self : system'.process mover = (system.process mover).goto .print := by rw [updated, Function.update_self]
  have others : ∀ other, other ≠ mover → system'.process other = system.process other := by
    intro other different
    rw [updated, Function.update_of_ne different]
  have here : system'.kernel.shm.content object = some (atoi count) := by simp [shm]
  have elsewhere : ∀ other, other ≠ object → system'.kernel.shm.content other = system.kernel.shm.content other := by
    intro other different
    simp [shm, different]
  refine values.still (by rw [shm]; rfl) (by rw [shm]; exact fun _ _ here => here) ?_ ?_ ?_ ?_ ?_
  · intro other
    by_cases same : other = mover
    · rw [same, self]
      rfl
    · rw [others other same]
  · intro other unopened
    by_cases same : other = mover
    · rw [same, self] at unopened
      cases unopened
    · rwa [others other same] at unopened
  · intro other below
    have different : other ≠ object := by
      rintro rfl
      exact absurd (values.fresh mover other owner).1 (Nat.not_le_of_lt below)
    rw [elsewhere other different]
    exact values.old other below
  · intro writer other given writerWrites ptr done
    by_cases same : other = object
    · rw [same] at ptr ⊢
      have mine := values.sole writer mover object ⟨by rw [writerWrites]; rfl, ptr⟩ owner
      rw [mine, writes] at writerWrites
      obtain rfl := Option.some.inj writerWrites
      exact here
    · have different : writer ≠ mover := by
        rintro rfl
        rw [own] at ptr
        exact same (Option.some.inj ptr).symm
      rw [others writer different] at done
      rw [elsewhere other same]
      exact values.stored writer other given writerWrites ptr done
  · intro writer other ownOther notDone value found
    have different : writer ≠ mover := by
      rintro rfl
      rw [self] at notDone
      cases notDone
    have apart : other ≠ object := by
      rintro rfl
      exact different (values.sole writer mover other ownOther owner)
    rw [others writer different] at notDone
    rw [elsewhere other apart] at found
    exact values.unstored writer other ownOther notDone value found

/-- What a process prints is the content of the object that it opened. -/
theorem Values.explained (values : Values args kernel system) {object : Nat} {value : Int}
    (ptr : (system.process mover).ptr = some object) (place : (system.process mover).place.stored = true)
    (here : system.kernel.shm.content object = some value) : Explained args kernel system mover value := by
  simp only [Explained]
  split
  · rename_i count writes
    rw [values.stored mover object count writes ptr place] at here
    exact (Option.some.inj here).symm
  · rename_i reads
    refine ⟨object, ptr, ?_⟩
    rcases values.attached mover object reads ptr with before | ⟨writer, same, own⟩
    · refine .inl ⟨before, ?_⟩
      rcases values.old object (kernel.shm.bounded _ _ before) with still | ⟨empty, zero⟩
      · rw [still] at here
        rw [here]
        rfl
      · rw [zero] at here
        rw [empty]
        exact (Option.some.inj here).symm
    · obtain ⟨count, writes⟩ := Option.isSome_iff_exists.mp own.1
      refine .inr ⟨writer, count, same, writes, own.2, ?_⟩
      cases done : (system.process writer).place.stored with
      | false => exact values.unstored writer object own done value here
      | true =>
        rw [values.stored writer object count writes own.2 done] at here
        exact (Option.some.inj here).symm

/-! ## Runs -/

/-- A step that does nothing with memory objects but perhaps taking a name away. -/
theorem Values.idle (values : Values args kernel system)
    (updated : system'.process = Function.update system.process mover process')
    (created : system'.kernel.shm.created = system.kernel.shm.created)
    (content : system'.kernel.shm.content = system.kernel.shm.content)
    (entry : ∀ name id, system'.kernel.shm.entry name = some id → system.kernel.shm.entry name = some id)
    (ptr : process'.ptr = (system.process mover).ptr)
    (stored : (args mover).count.isSome = true → process'.place.stored = (system.process mover).place.stored)
    (unopened : process'.place.unopened = true → (system.process mover).place.unopened = true) :
    Values args kernel system' := by
  refine values.quiet created content entry ?_ ?_ ?_
  · intro process
    rw [updated, Function.update_apply]
    split
    · rename_i same
      rw [same, ptr]
    · rfl
  · intro process writes
    rw [updated, Function.update_apply]
    split
    · rename_i same
      rw [same] at writes ⊢
      exact stored writes
    · rfl
  · intro process here
    rw [updated, Function.update_apply] at here
    split at here
    · rename_i same
      rw [same]
      exact unopened here
    · exact here

theorem step_values (values : Values args kernel system) (taken : step args system mover = some system') :
    Values args kernel system' := by
  obtain ⟨process', kernel', line, ran, rfl, updated, _⟩ := step_cases taken
  generalize eq : system'.kernel = kernel' at ran
  cases ran with
  | shmUnlink place =>
    refine values.idle updated (by rw [eq]; rfl) (by rw [eq]; rfl) ?_ rfl ?_ ?_
    · rw [eq]
      exact fun _ _ here => Registry.entry_of_unlink here
    · simp [Process.goto, place, Place.stored]
    · simp [place, Place.unopened]
  | shmFailed place =>
    refine values.idle updated (by rw [eq]) (by rw [eq]) (by rw [eq]; exact fun _ _ here => here) rfl ?_ ?_
    · simp [Process.goto, place, Place.stored]
    · simp [place, Place.unopened]
  | attach place reads entry =>
    refine values.opened updated place ?_ ?_ ?_ (fun _ => entry) ?_
    · rw [eq]
    · rw [eq]
      exact fun _ _ => rfl
    · rw [reads]
      exact fun writes => nomatch writes
    · rw [eq]
      exact fun _ _ here => .inl here
  | make place writes made =>
    have created := Registry.created_of_create made
    refine values.opened updated place ?_ ?_ ?_ ?_ ?_
    · rw [eq]
      simp [created.created]
    · rw [eq]
      intro other below
      simp [created.content, Nat.ne_of_lt below]
    · rw [eq]
      simp [created.created, created.content]
    · rw [writes]
      exact fun reads => nomatch reads
    · rw [eq]
      intro name other here
      simp only [created.entry, Function.update_apply] at here
      split at here
      · rename_i same
        exact .inr ⟨same.symm, by rw [writes]; rfl, (Option.some.inj here).symm⟩
      · exact .inl here
  | @ftruncate object place ptr =>
    have still : ∀ process, (system'.process process).ptr = (system.process process).ptr ∧
        (system'.process process).place.stored = (system.process process).place.stored ∧
        ((system'.process process).place.unopened = true → (system.process process).place.unopened = true) := by
      intro process
      rw [updated, Function.update_apply]
      split
      · rename_i same
        rw [same, place]
        cases (args mover).count.isSome <;> exact ⟨rfl, rfl, fun here => nomatch here⟩
      · exact ⟨rfl, rfl, id⟩
    exact values.truncated (by rw [eq]) (fun process => (still process).1) (fun process => (still process).2.1)
      (fun process => (still process).2.2)
  | semUnlink place =>
    refine values.idle updated (by rw [eq]) (by rw [eq]) (by rw [eq]; exact fun _ _ here => here) rfl ?_ ?_
    · simp [Process.goto, place, Place.stored]
    · simp [Process.goto, Place.unopened]
  | semFailed place =>
    refine values.idle updated (by rw [eq]) (by rw [eq]) (by rw [eq]; exact fun _ _ here => here) rfl ?_ ?_
    · simp [Process.goto, place, Place.stored]
    · simp [Process.goto, Place.unopened]
  | semAttach place entry =>
    refine values.idle updated (by rw [eq]) (by rw [eq]) (by rw [eq]; exact fun _ _ here => here) rfl ?_ ?_
    · simp [place, Place.stored]
    · simp [Place.unopened]
  | semMake place made =>
    refine values.idle updated (by rw [eq]) (by rw [eq]) (by rw [eq]; exact fun _ _ here => here) rfl ?_ ?_
    · simp [place, Place.stored]
    · simp [Place.unopened]
  | semWait place mutex positive =>
    refine values.idle updated (by rw [eq]) (by rw [eq]) (by rw [eq]; exact fun _ _ here => here) rfl ?_ ?_
    · intro writes
      simp [Process.goto, place, writes, Place.stored]
    · cases (args mover).count.isSome <;> simp [Process.goto, Place.unopened]
  | store place ptr writes => exact values.written writes ptr (by rw [eq]) updated
  | @print object value place ptr here =>
    refine values.idle updated (by rw [eq]) (by rw [eq]) (by rw [eq]; exact fun _ _ here => here) rfl ?_ ?_
    · simp [Process.goto, place, Place.stored]
    · simp [Process.goto, Place.unopened]
  | semPost place mutex =>
    refine values.idle updated (by rw [eq]) (by rw [eq]) (by rw [eq]; exact fun _ _ here => here) rfl ?_ ?_
    · simp [Process.goto, place, Place.stored]
    · simp [Process.goto, Place.unopened]

variable {past : List (System processes × Fin processes)} {last : System processes}

/-- A line that was not there before is the content of the object that its process has opened. -/
theorem step_printed (taken : step args system mover = some system') {process : Fin processes} {value : Int}
    (member : (process, value) ∈ system'.printed) (new : (process, value) ∉ system.printed) :
    process = mover ∧ (system.process mover).place = .print ∧
      ∃ object, (system.process mover).ptr = some object ∧ system.kernel.shm.content object = some value := by
  obtain ⟨process', kernel', line, ran, _, _, printed⟩ := step_cases taken
  rw [printed] at member
  have now := (List.mem_append.mp member).resolve_left new
  cases ran with
  | print place ptr here =>
    simp only [Option.map_some, Option.toList_some, List.mem_singleton, Prod.mk.injEq] at now
    exact ⟨now.1, place, _, ptr, now.2 ▸ here⟩
  | shmUnlink | shmFailed | attach | make | ftruncate | semUnlink | semFailed | semAttach | semMake | semWait
    | store | semPost => simp at now

/-- A writer prints the count that it was given.  A reader prints what was in the memory of its
name from the start, or the count that a writer to that name has stored by then, or the zero before it. -/
theorem printed_explained (execution : Execution (step args) (System.init args kernel) past last)
    {process : Fin processes} {value : Int} (member : (process, value) ∈ last.printed) :
    ∃ state, (state, process) ∈ past ∧ (state.process process).place = .print ∧
      Explained args kernel state process value := by
  obtain ⟨⟨state, mover⟩, here, new, next, taken, printed⟩ :=
    execution.origin (fun state => (process, value) ∈ state.printed) List.not_mem_nil member
  have values := execution.always_before (Values args kernel) (init_values args kernel)
    (fun _ _ _ values taken => step_values values taken) _ here
  obtain ⟨rfl, place, object, ptr, content⟩ := step_printed taken printed new
  exact ⟨state, here, place, values.explained ptr (by rw [place]; rfl) content⟩

/-- A writer with the count 5 and a reader. -/
def writerAndReader (id : Fin 2) : Args := if id.val = 0 then ⟨[109], [115], some [53]⟩ else ⟨[109], [115], none⟩

/-- The writer as a whole, and then the reader. -/
theorem printed_explained_five : ∃ past last,
    Execution (step writerAndReader) (System.init writerAndReader .empty) past last ∧ (1, 5) ∈ last.printed ∧
      ∃ state, (state, 1) ∈ past ∧ (state.process 1).place = .print ∧
        Explained writerAndReader .empty state 1 5 := by
  have performed : ∃ last, perform (step writerAndReader) (System.init writerAndReader .empty)
      [0, 0, 0, 0, 0, 0, 0, 0, 0, 1, 1, 1, 1, 1] = some last ∧ (1, 5) ∈ last.printed :=
    ⟨_, rfl, by simp; decide⟩
  obtain ⟨last, performed, printed⟩ := performed
  obtain ⟨past, _, execution⟩ := execution_of_perform performed
  exact ⟨past, last, execution, printed, printed_explained execution printed⟩

/-! ## Opening what has been stored -/

/-- A process prints once, and what it does then is to post the semaphore. -/
def Spoken (system : System processes) : Prop :=
  ∀ process value, (process, value) ∈ system.printed →
    (system.process process).place = .semPost ∨ (system.process process).place = .returned

theorem step_spoken (spoken : Spoken system) (taken : step args system mover = some system') : Spoken system' := by
  obtain ⟨process', kernel', line, ran, _, updated, printed⟩ := step_cases taken
  intro process value member
  rw [updated, Function.update_apply]
  rw [printed] at member
  split
  · rename_i same
    -- the process has posted now, or printed
    cases ran with
    | print place ptr here => exact .inl rfl
    | semPost place mutex => exact .inr rfl
    | shmUnlink place | shmFailed place | attach place | make place | ftruncate place | semUnlink place
      | semFailed place | semAttach place | semMake place | semWait place | store place =>
      simp only [Option.map_none, Option.toList_none, List.append_nil] at member
      have before := spoken process value member
      rw [same, place] at before
      simp at before
  · rename_i different
    refine spoken process value ?_
    rcases List.mem_append.mp member with before | now
    · exact before
    · cases line with
      | none => simp at now
      | some count =>
        simp only [Option.map_some, Option.toList_some, List.mem_singleton, Prod.mk.injEq] at now
        exact absurd now.1 different

theorem step_ptr (values : Values args kernel system) (taken : step args system mover = some system')
    {process : Fin processes} {object : Nat} (ptr : (system.process process).ptr = some object) :
    (system'.process process).ptr = some object := by
  obtain ⟨process', kernel', line, ran, _, updated, _⟩ := step_cases taken
  rw [updated, Function.update_apply]
  split
  · rename_i same
    rw [same] at ptr
    cases ran with
    | attach place | make place =>
      rw [values.unopened mover (by rw [place]; rfl)] at ptr
      cases ptr
    | shmUnlink | shmFailed | ftruncate | semUnlink | semFailed | semAttach | semMake | semWait | store | print
      | semPost => exact ptr
  · exact ptr

theorem step_stored (taken : step args system mover = some system') {process : Fin processes}
    (done : (system.process process).place.stored = true) : (system'.process process).place.stored = true := by
  obtain ⟨process', kernel', line, ran, _, updated, _⟩ := step_cases taken
  rw [updated, Function.update_apply]
  split
  · rename_i same
    rw [same] at done
    cases ran with
    | store place | print place | semPost place => rfl
    | shmUnlink place | shmFailed place | attach place | make place | ftruncate place | semUnlink place
      | semFailed place | semAttach place | semMake place | semWait place =>
      rw [place] at done
      cases done
  · exact done

/-- The reader and the writer share an object in which the count has been stored. -/
structure Met (args : Fin processes → Args) (kernel : Kernel) (reader writer : Fin processes) (object : Nat)
    (count : List Byte) (system : System processes) : Prop where
  values : Values args kernel system
  spoken : Spoken system
  reading : (system.process reader).ptr = some object
  writing : (system.process writer).ptr = some object
  stored : (system.process writer).place.stored = true
  printed : ∀ value, (reader, value) ∈ system.printed → value = atoi count

theorem step_met {reader writer : Fin processes} {object : Nat} {count : List Byte}
    (writes : (args writer).count = some count) (met : Met args kernel reader writer object count system)
    (taken : step args system mover = some system') : Met args kernel reader writer object count system' := by
  refine ⟨step_values met.values taken, step_spoken met.spoken taken, step_ptr met.values taken met.reading,
    step_ptr met.values taken met.writing, step_stored taken met.stored, ?_⟩
  obtain ⟨process', kernel', line, ran, _, _, printed⟩ := step_cases taken
  intro value member
  rw [printed] at member
  rcases List.mem_append.mp member with before | now
  · exact met.printed value before
  · cases ran with
    | print place ptr here =>
      simp only [Option.map_some, Option.toList_some, List.mem_singleton, Prod.mk.injEq] at now
      rw [← now.1, met.reading] at ptr
      cases ptr
      rw [met.values.stored writer object count writes met.writing met.stored] at here
      rw [now.2]
      exact (Option.some.inj here).symm
    | shmUnlink | shmFailed | attach | make | ftruncate | semUnlink | semFailed | semAttach | semMake | semWait
      | store | semPost => simp at now

/-- A reader that opens the memory when the writer that made it has stored its count, prints
nothing but that count, whatever the others do in the meantime. -/
theorem reader_prints_stored (execution : Execution (step args) (System.init args kernel) past last)
    {before after : List (System processes × Fin processes)} {state : System processes}
    {reader writer : Fin processes} (split : past = before ++ (state, reader) :: after)
    (reads : (args reader).count = none) (opens : (state.process reader).place = .shmOpen) {object : Nat}
    (entry : state.kernel.shm.entry (args reader).shm = some object) {count : List Byte}
    (writes : (args writer).count = some count) (made : (state.process writer).ptr = some object)
    (stored : (state.process writer).place.stored = true) {value : Int} (member : (reader, value) ∈ last.printed) :
    value = atoi count := by
  rw [split] at execution
  obtain ⟨earlier, next, taken, later⟩ := execution.split
  have values := earlier.always (Values args kernel) (init_values args kernel)
    fun _ _ _ values taken => step_values values taken
  have spoken := earlier.always Spoken (fun _ _ member => nomatch member) fun _ _ _ spoken taken =>
    step_spoken spoken taken
  have opened : next = { state with
      process := Function.update state.process reader
        { state.process reader with place := .ftruncate, ptr := some object } } := by
    simp only [step, run, opens, shmOpen, reads, entry, Option.map_some, Option.some.injEq] at taken
    rw [← taken]
    simp
  have met : Met args kernel reader writer object count next := by
    refine ⟨step_values values taken, step_spoken spoken taken, ?_, step_ptr values taken made,
      step_stored taken stored, ?_⟩
    · rw [opened]
      simp
    · intro value member
      rw [opened] at member
      have nothing := spoken reader value member
      rw [opens] at nothing
      simp at nothing
  exact (later.always (Met args kernel reader writer object count) met fun _ _ _ met taken =>
    step_met writes met taken).printed value member

/-- The reader opens the memory after the writer has posted, and prints. -/
theorem reader_prints_stored_five : ∃ past last,
    Execution (step writerAndReader) (System.init writerAndReader .empty) past last ∧ (1, 5) ∈ last.printed ∧
      ∀ value, (1, value) ∈ last.printed → value = 5 := by
  have performed : ∃ state next last, perform (step writerAndReader) (System.init writerAndReader .empty)
        [0, 0, 0, 0, 0, 0, 0, 0, 0] = some state ∧ step writerAndReader state 1 = some next ∧
      perform (step writerAndReader) next [1, 1, 1, 1] = some last ∧ (state.process 1).place = .shmOpen ∧
      state.kernel.shm.entry [109] = some 0 ∧ (state.process 0).ptr = some 0 ∧
      (state.process 0).place.stored = true ∧ (1, 5) ∈ last.printed :=
    ⟨_, _, _, rfl, rfl, rfl, rfl, rfl, rfl, rfl, by simp; decide⟩
  obtain ⟨state, next, last, writing, opening, reading, opens, entry, made, stored, printed⟩ := performed
  obtain ⟨before, _, earlier⟩ := execution_of_perform writing
  obtain ⟨after, _, later⟩ := execution_of_perform reading
  have execution := (earlier.followedBy 1 opening).append later
  have five : atoi [53] = 5 := by decide
  refine ⟨_, last, execution, printed, fun value member => ?_⟩
  rw [← five]
  exact reader_prints_stored execution (List.append_cons before (state, 1) after).symm rfl opens entry
    (show (writerAndReader 0).count = some [53] from rfl) made stored member

end KernelLearning.SharedMemory
