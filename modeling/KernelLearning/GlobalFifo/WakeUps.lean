import KernelLearning.GlobalFifo.Discipline
import KernelLearning.GlobalFifo.Sequential

/-!
# Wake-ups

A process that sleeps until there is room, or until there are bytes, is woken when
that happens, as long as the steps that no lock protects do no harm: `FIFO_CLEAR`
wakes nobody, and `globalfifo_read` tests, sleeps and copies without the mutex.  A read
that has returned leaves a node on `r_wait` whose memory is gone, so nothing is said
about what follows the links of that queue from then on.
-/

namespace KernelLearning.GlobalFifo

open Interaction

variable {Process : Type} [DecidableEq Process]

/-! ## Sleeping and waiting -/

/-- Asleep on `w_wait`, with no wake-up delivered. -/
def AsleepForSpace (system : System Process) (process : Process) : Prop :=
  match system.activity process with
  | .write _ _ .schedule => system.state process = .interruptible
  | _ => False

/-- Asleep on `r_wait`, with no wake-up delivered. -/
def AsleepForBytes (system : System Process) (process : Process) : Prop :=
  match system.activity process with
  | .read _ _ .schedule => system.state process = .interruptible
  | _ => False

/-- With the mutex free, nobody sleeps for what is there. -/
structure NoLostWakeUp (system : System Process) : Prop where
  space : system.dev.mutex = none → system.dev.currentLen.toNat < globalfifoSize →
    ∀ process, ¬ AsleepForSpace system process
  bytes : system.dev.mutex = none → 0 < system.dev.currentLen.toNat →
    ∀ process, ¬ AsleepForBytes system process

/-- A writer that has found the queue full and has not been woken since. -/
def WaitsForSpace (system : System Process) (process : Process) : Prop :=
  match system.activity process with
  | .write _ _ .setInterruptible => True
  | .write _ _ .unlock | .write _ _ .schedule => system.state process = .interruptible
  | _ => False

/-- A reader that has set its state to sleep and has not been woken since. -/
def WaitsForBytes (system : System Process) (process : Process) : Prop :=
  match system.activity process with
  | .read _ _ .unlock | .read _ _ .schedule => system.state process = .interruptible
  | _ => False

/-- The unprotected steps come when they do no harm.  `FIFO_CLEAR` empties the queue only while no
writer waits for space.  A read that does not hold the mutex takes bytes only while no writer waits for
space, sets its state to sleep only while the queue is still empty, and releases only a free mutex. -/
def Guarded (system : System Process) : Event Process → Prop
  | .step process fault =>
    match system.activity process with
    | .ioctl _ .clear => ∀ writer, ¬ WaitsForSpace system writer
    | .read count _ .copy =>
      system.dev.mutex = some process ∨ fault ≠ none ∨ count = 0 ∨
        ∀ writer, ¬ WaitsForSpace system writer
    | .read _ _ .setInterruptible =>
      system.dev.mutex = some process ∨ system.dev.currentLen = 0
    | .read _ _ .unlock | .read _ _ (.out _) => system.dev.mutex ∈ [none, some process]
    | _ => True
  | _ => True

/-- The events that follow the links of `r_wait`. -/
def TouchesReadQueue (system : System Process) : Event Process → Prop
  | .step process _ =>
    match system.activity process with
    | .read _ _ .addWait | .read _ _ (.out2 _) | .write _ _ (.wakeReaders _) | .poll true .pollWaitRead => True
    | _ => False
  | .pollEnd process => .polled process ∈ system.dev.rWait
  | _ => False

/-- A read of the process has returned, and its `wait` is still on `r_wait`: a node on a stack frame
that is gone. -/
def LeftBehind (system : System Process) (process : Process) : Prop :=
  .declared process ∈ system.dev.rWait ∧ (system.activity process).readEntries = 0

/-- The step is guarded, and does not follow the links of `r_wait` while one of them is dead: up to
there the queue is the list that the model has of it. -/
structure Harmless (system : System Process) (event : Event Process) : Prop where
  guarded : Guarded system event
  linked : TouchesReadQueue system event → ∀ reader, ¬ LeftBehind system reader

/-! ## The invariant -/

/-- Where a reader's entry is on `r_wait`. -/
def Activity.onReadQueue : Activity → Bool
  | .read _ _ .test | .read _ _ .setInterruptible | .read _ _ .unlock | .read _ _ .schedule
  | .read _ _ .signalPending | .read _ _ .lock => true
  | _ => false

/-- What a process relies on while it is in a call. -/
structure Placed (system : System Process) (process : Process) (activity : Activity) : Prop where
  mutex : activity.holds = true → system.dev.mutex = some process
  rWait : activity.onReadQueue = true → .declared process ∈ system.dev.rWait
  wWait : activity.writeEntries = 1 → .declared process ∈ system.dev.wWait

/-- About to wake the writers, or the readers. -/
def Activity.wakesWriters : Activity → Bool
  | .read _ _ (.wakeWriters _) => true
  | _ => false

def Activity.wakesReaders : Activity → Bool
  | .write _ _ (.wakeReaders _) => true
  | _ => false

/-- The queue is full, or the holder of the mutex is about to wake the writers. -/
def NoSpaceYet (system : System Process) : Prop :=
  system.dev.currentLen.toNat = globalfifoSize ∨
    ∃ waker, system.dev.mutex = some waker ∧ (system.activity waker).wakesWriters = true

/-- The queue is empty, or the holder of the mutex is about to wake the readers. -/
def NoBytesYet (system : System Process) : Prop :=
  system.dev.currentLen.toNat = 0 ∨
    ∃ waker, system.dev.mutex = some waker ∧ (system.activity waker).wakesReaders = true

/-- A reader with the mutex that is about to set its state to sleep. -/
def Activity.goesToSleep : Activity → Bool
  | .read _ _ .setInterruptible => true
  | _ => false

structure Waking (system : System Process) : Prop where
  bounded : system.dev.Bounded
  placed : ∀ process, Placed system process (system.activity process)
  space : ∀ writer, WaitsForSpace system writer → NoSpaceYet system
  bytes : ∀ reader, WaitsForBytes system reader → NoBytesYet system
  tested : ∀ reader, system.dev.mutex = some reader → (system.activity reader).goesToSleep = true →
    system.dev.currentLen.toNat = 0

/-! ## What the other processes keep -/

variable {system system' arrived : System Process} {process other : Process}
  {fault : Option (List UInt8)}

omit [DecidableEq Process] in
/-- Asleep afterwards means asleep before: a step of another process only wakes. -/
theorem interruptible_before {state state' : TaskState} (kept : state = .running → state' = .running)
    (asleep : state' = .interruptible) : state = .interruptible := by
  cases state with
  | running => simp [kept rfl] at asleep
  | interruptible => rfl

theorem Frame.waitsForSpace (frame : Frame other system system') (waits : WaitsForSpace system' other) :
    WaitsForSpace system other := by
  simp only [WaitsForSpace, frame.activity] at waits ⊢
  split at waits
  · trivial
  · exact interruptible_before frame.running waits
  · exact interruptible_before frame.running waits
  · exact absurd waits id

theorem Frame.waitsForBytes (frame : Frame other system system') (waits : WaitsForBytes system' other) :
    WaitsForBytes system other := by
  simp only [WaitsForBytes, frame.activity] at waits ⊢
  split at waits
  · exact interruptible_before frame.running waits
  · exact interruptible_before frame.running waits
  · exact absurd waits id

theorem Frame.placed (frame : Frame other system system') (placed : Placed system other (system.activity other)) :
    Placed system' other (system'.activity other) := by
  rw [frame.activity]
  refine ⟨fun holds => frame.mutex.mpr (placed.mutex holds), fun on => ?_, fun on => ?_⟩
  · rw [← List.count_pos_iff, frame.rWait, List.count_pos_iff]
    exact placed.rWait on
  · rw [← List.count_pos_iff, frame.wWait, List.count_pos_iff]
    exact placed.wWait on

/-! ## What a process keeps for itself -/

theorem read_placed {count : Nat} {nonblock : Bool} {pc pc' : ReadPc}
    (placed : Placed system process (.read count nonblock pc))
    (rule : ReadStep system process count nonblock fault pc arrived pc') :
    Placed arrived process (.read count nonblock pc') := by
  obtain ⟨mutex, rWait, wWait⟩ := placed
  -- a read holds nothing that it relies on but its entry
  refine ⟨fun holds => absurd holds Bool.false_ne_true, ?_, fun on => absurd on (by simp [Activity.writeEntries])⟩
  cases rule with
  | addWait => simp
  | empty | setInterruptible | unlock | woken | interrupted | retry | lock => exact fun _ => rWait rfl
  | _ => exact fun on => absurd on Bool.false_ne_true

theorem write_placed {buf : List UInt8} {nonblock : Bool} {pc pc' : WritePc}
    (placed : Placed system process (.write buf nonblock pc))
    (rule : WriteStep system process buf nonblock pc arrived pc') :
    Placed arrived process (.write buf nonblock pc') := by
  obtain ⟨mutex, rWait, wWait⟩ := placed
  cases rule with
  | lock | relock => exact ⟨fun _ => rfl, rWait, wWait⟩
  | addWait => exact ⟨mutex, rWait, fun _ => by simp⟩
  | unlock => exact ⟨fun holds => absurd holds Bool.false_ne_true, rWait, wWait⟩
  | out ret => exact ⟨fun holds => absurd holds Bool.false_ne_true, rWait, wWait⟩
  | out2 ret => exact ⟨mutex, rWait, fun on => absurd on (by simp [Activity.writeEntries])⟩
  | _ => exact ⟨mutex, rWait, wWait⟩

omit [DecidableEq Process] in
theorem poll_placed {table : Bool} {pc pc' : PollPc} (placed : Placed system process (.poll table pc))
    (rule : PollStep system process pc arrived pc') : Placed arrived process (.poll table pc') := by
  obtain ⟨mutex, rWait, wWait⟩ := placed
  refine ⟨?_, fun on => absurd on Bool.false_ne_true, fun on => absurd on (by simp [Activity.writeEntries])⟩
  cases rule with
  | lock => exact fun _ => rfl
  | unlock => exact fun holds => absurd holds Bool.false_ne_true
  | _ => exact mutex

omit [DecidableEq Process] in
theorem ioctl_placed {cmd : Nat} {pc pc' : IoctlPc} (placed : Placed system process (.ioctl cmd pc))
    (rule : IoctlStep system process cmd pc arrived pc') : Placed arrived process (.ioctl cmd pc') := by
  obtain ⟨mutex, rWait, wWait⟩ := placed
  refine ⟨?_, fun on => absurd on Bool.false_ne_true, fun on => absurd on (by simp [Activity.writeEntries])⟩
  cases rule with
  | lock => exact fun _ => rfl
  | unlock => exact fun holds => absurd holds Bool.false_ne_true
  | _ => exact mutex

theorem Placed.goto {activity : Activity} (placed : Placed arrived process activity) :
    Placed (arrived.goto process activity) process ((arrived.goto process activity).activity process) := by
  obtain ⟨mutex, rWait, wWait⟩ := placed
  simp only [System.goto, Function.update_self]
  exact ⟨mutex, rWait, wWait⟩

theorem placed_step (placed : Placed system process (system.activity process))
    (step : Step system process fault system') : Placed system' process (system'.activity process) := by
  cases step with
  | returns =>
    apply Placed.goto
    exact ⟨fun holds => absurd holds Bool.false_ne_true, fun on => absurd on Bool.false_ne_true,
      fun on => absurd on (by simp [Activity.writeEntries])⟩
  | read here rule => exact (read_placed (here ▸ placed) rule).goto
  | write here rule => exact (write_placed (here ▸ placed) rule).goto
  | poll here rule => exact (poll_placed (here ▸ placed) rule).goto
  | ioctl here rule => exact (ioctl_placed (here ▸ placed) rule).goto

omit [DecidableEq Process] in
/-- A guarded step releases at most the mutex of its own process. -/
theorem released_of_guarded (waking : Waking system) (guarded : Guarded system (.step process fault))
    (atUnlock : (system.activity process).AtUnlock) : system.dev.mutex ∈ [none, some process] := by
  have held := (waking.placed process).mutex
  simp only [Guarded] at guarded
  cases here : system.activity process with
  | idle => simp [here, Activity.AtUnlock] at atUnlock
  | read count nonblock pc =>
    rw [here] at guarded atUnlock
    cases pc with
    -- a read may be here without the mutex; that nobody else has it is what guarded says
    | unlock | out => exact guarded
    | _ => exact absurd atUnlock id
  | write buf nonblock pc =>
    rw [here] at held atUnlock
    cases pc with
    | unlock | out => simp [held rfl]
    | _ => exact absurd atUnlock id
  | poll table pc =>
    rw [here] at held atUnlock
    cases pc with
    | unlock => simp [held rfl]
    | _ => exact absurd atUnlock id
  | ioctl cmd pc =>
    rw [here] at held atUnlock
    cases pc with
    | unlock => simp [held rfl]
    | _ => exact absurd atUnlock id

/-- A wake-up reaches every process that is on the queue. -/
theorem state_wakeUp (system : System Process) {queue : List (WaitEntry Process)} (listed : .declared process ∈ queue) :
    (system.wakeUp queue).state process = .running := by
  have member : process ∈ queue.map WaitEntry.task := List.mem_map.mpr ⟨_, listed, rfl⟩
  simp only [System.wakeUp, member, if_true]

/-! ## Waiting writers -/

theorem NoSpaceYet.keep (yet : NoSpaceYet system) (len : system'.dev.currentLen = system.dev.currentLen)
    (frames : ∀ other, other ≠ process → Frame other system system')
    (noWaker : (system.activity process).wakesWriters = false) : NoSpaceYet system' := by
  cases yet with
  | inl full => exact .inl (by rw [len]; exact full)
  | inr waker =>
    obtain ⟨waker, held, wakes⟩ := waker
    have distinct : waker ≠ process := by
      rintro rfl
      simp [noWaker] at wakes
    have frame := frames waker distinct
    exact .inr ⟨waker, frame.mutex.mpr held, by rw [frame.activity]; exact wakes⟩

omit [DecidableEq Process] in
/-- The holder of the mutex, in a write, is the only one who could be about to wake the writers. -/
theorem NoSpaceYet.full_of_holder {holder : Process} (yet : NoSpaceYet system)
    (held : system.dev.mutex = some holder) (noWaker : (system.activity holder).wakesWriters = false) :
    system.dev.currentLen.toNat = globalfifoSize := by
  cases yet with
  | inl full => exact full
  | inr waker =>
    obtain ⟨waker, heldBy, wakes⟩ := waker
    obtain rfl := Option.some.inj (held.symm.trans heldBy)
    simp [noWaker] at wakes

theorem read_space {count : Nat} {nonblock : Bool} {pc pc' : ReadPc} {writer : Process} (waking : Waking system)
    (here : system.activity process = .read count nonblock pc)
    (guarded : Guarded system (.step process fault))
    (rule : ReadStep system process count nonblock fault pc arrived pc')
    (frames : ∀ other, other ≠ process →
      Frame other system (arrived.goto process (.read count nonblock pc')))
    (waits : WaitsForSpace (arrived.goto process (.read count nonblock pc')) writer) :
    NoSpaceYet (arrived.goto process (.read count nonblock pc')) := by
  have distinct : writer ≠ process := by
    rintro rfl
    simp [WaitsForSpace] at waits
  have before := (frames writer distinct).waitsForSpace waits
  have yet := waking.space writer before
  simp only [Guarded, here] at guarded
  cases rule with
  | copy taking taking_eq copied =>
    have unchanged (none : taking = 0) : NoSpaceYet (System.goto (system.setData
        (system.dev.currentLen - UInt32.ofNat taking)
        (system.dev.mem.memcpy taking (system.dev.currentLen - UInt32.ofNat taking).toNat)) process
        (.read count nonblock (.wakeWriters (system.dev.mem.bytes.take taking)))) :=
      yet.keep (by simp [none]) frames (by rw [here]; rfl)
    simp only at guarded
    rcases guarded with held | faulting | none | nobody
    · -- the reader holds the mutex and goes on to wake the writers
      exact .inr ⟨process, held, by simp [Activity.wakesWriters]⟩
    · exact unchanged (copied.resolve_left faulting)
    · exact unchanged (by omega)
    · exact absurd before (nobody writer)
  | wakeWriters bytes =>
    have placed := waking.placed writer
    simp only [WaitsForSpace] at before waits
    split at before
    case h_1 atWriter =>
      -- it is still on its way to sleep, so it holds the mutex and found the queue full
      rw [atWriter] at placed
      have full := yet.full_of_holder (placed.mutex rfl) (by rw [atWriter]; rfl)
      exact .inl full
    case h_2 atWriter | h_3 atWriter =>
      rw [atWriter] at placed
      have woken := state_wakeUp system (placed.wWait rfl)
      simp only [System.goto, Function.update_of_ne distinct, atWriter, System.wakeUp] at waits woken
      rw [woken] at waits
      exact absurd waits (by simp)
    case h_4 => exact absurd before id
  | _ => exact yet.keep rfl frames (by rw [here]; rfl)

theorem write_space {buf : List UInt8} {nonblock : Bool} {pc pc' : WritePc} {writer : Process}
    (waking : Waking system) (here : system.activity process = .write buf nonblock pc)
    (rule : WriteStep system process buf nonblock pc arrived pc')
    (frames : ∀ other, other ≠ process →
      Frame other system (arrived.goto process (.write buf nonblock pc')))
    (waits : WaitsForSpace (arrived.goto process (.write buf nonblock pc')) writer) :
    NoSpaceYet (arrived.goto process (.write buf nonblock pc')) := by
  have noWaker : (system.activity process).wakesWriters = false := by rw [here]; rfl
  have placed := waking.placed process
  rw [here] at placed
  by_cases same : writer = process
  · subst same
    -- the writer itself has found the queue full, now or before
    have waited (before : WaitsForSpace system writer)
        (len : (arrived.goto writer (.write buf nonblock pc')).dev.currentLen = system.dev.currentLen) :
        NoSpaceYet (arrived.goto writer (.write buf nonblock pc')) :=
      (waking.space writer before).keep len frames noWaker
    cases rule with
    | full full =>
      left
      rw [← toNat_globalfifoSize]
      exact congrArg UInt32.toNat full
    | setInterruptible => exact waited (by simp [WaitsForSpace, here]) rfl
    | unlock =>
      refine waited ?_ rfl
      simpa [WaitsForSpace, here] using waits
    | _ => simp [WaitsForSpace] at waits
  · have before := (frames writer same).waitsForSpace waits
    have yet := waking.space writer before
    cases rule with
    | copy accepting accepting_eq =>
      -- the queue was full, so nothing was accepted
      have full := yet.full_of_holder (placed.mutex rfl) noWaker
      have free := toNat_free waking.bounded
      have nothing : accepting = 0 := by omega
      exact yet.keep (by simp [nothing]) frames noWaker
    | _ => exact yet.keep rfl frames noWaker

theorem space_step {writer : Process} (waking : Waking system)
    (guarded : Guarded system (.step process fault)) (step : Step system process fault system')
    (frames : ∀ other, other ≠ process → Frame other system system')
    (waits : WaitsForSpace system' writer) : NoSpaceYet system' := by
  -- only a write makes its own process wait for space
  have byAnother (idle : ∀ buf nonblock pc, system'.activity process ≠ .write buf nonblock pc) :
      WaitsForSpace system writer := by
    have distinct : writer ≠ process := by
      rintro rfl
      simp only [WaitsForSpace] at waits
      split at waits <;> first | exact absurd waits id | exact absurd ‹_› (idle _ _ _)
    exact (frames writer distinct).waitsForSpace waits
  cases step with
  | returns outcome returning =>
    refine (waking.space writer (byAnother (by simp))).keep rfl frames ?_
    cases here : system.activity process with
    | read count nonblock pc => cases pc <;> simp_all [Activity.outcome, Activity.wakesWriters]
    | _ => rfl
  | read here rule => exact read_space waking here guarded rule frames waits
  | write here rule => exact write_space waking here rule frames waits
  | poll here rule =>
    have yet := waking.space writer (byAnother (by simp))
    cases rule <;> exact yet.keep rfl frames (by rw [here]; rfl)
  | ioctl here rule =>
    have before := byAnother (by simp)
    have yet := waking.space writer before
    cases rule with
    | clear =>
      simp only [Guarded, here] at guarded
      exact absurd before (guarded writer)
    | _ => exact yet.keep rfl frames (by rw [here]; rfl)

/-! ## Waiting readers -/

theorem NoBytesYet.keep (yet : NoBytesYet system)
    (len : system.dev.currentLen.toNat = 0 → system'.dev.currentLen.toNat = 0)
    (frames : ∀ other, other ≠ process → Frame other system system')
    (noWaker : (system.activity process).wakesReaders = false) : NoBytesYet system' := by
  cases yet with
  | inl empty => exact .inl (len empty)
  | inr waker =>
    obtain ⟨waker, held, wakes⟩ := waker
    have distinct : waker ≠ process := by
      rintro rfl
      simp [noWaker] at wakes
    have frame := frames waker distinct
    exact .inr ⟨waker, frame.mutex.mpr held, by rw [frame.activity]; exact wakes⟩

/-- Only the copy of a write brings bytes into an empty queue. -/
theorem empty_step (bounded : system.dev.Bounded) (step : Step system process fault system')
    (empty : system.dev.currentLen.toNat = 0) : system'.dev.currentLen.toNat = 0 ∨
      ∃ buf nonblock, system.activity process = .write buf nonblock .copy ∧
        (system'.activity process).wakesReaders = true := by
  cases step with
  | returns => exact .inl empty
  | read here rule =>
    left
    cases rule with
    | copy taking taking_eq =>
      -- a read takes bytes away
      simp only [System.goto, System.setData, toNat_sub_ofNat (show taking ≤ _ by omega) bounded]
      omega
    | _ => exact empty
  | write here rule =>
    cases rule with
    | copy => exact .inr ⟨_, _, here, by simp [Activity.wakesReaders]⟩
    | _ => exact .inl empty
  | poll here rule => cases rule <;> exact .inl empty
  | ioctl here rule =>
    left
    cases rule with
    | clear => rfl
    | _ => exact empty

theorem write_bytes {buf : List UInt8} {nonblock : Bool} {pc pc' : WritePc} {reader : Process}
    (waking : Waking system) (here : system.activity process = .write buf nonblock pc)
    (rule : WriteStep system process buf nonblock pc arrived pc')
    (frames : ∀ other, other ≠ process →
      Frame other system (arrived.goto process (.write buf nonblock pc')))
    (waits : WaitsForBytes (arrived.goto process (.write buf nonblock pc')) reader) :
    NoBytesYet (arrived.goto process (.write buf nonblock pc')) := by
  have distinct : reader ≠ process := by
    rintro rfl
    simp [WaitsForBytes] at waits
  have before := (frames reader distinct).waitsForBytes waits
  have yet := waking.bytes reader before
  have placed := waking.placed process
  rw [here] at placed
  cases rule with
  -- the bytes come with the mutex held, and the wake-up comes before its release
  | copy => exact .inr ⟨process, placed.mutex rfl, by simp [Activity.wakesReaders]⟩
  | wakeReaders ret =>
    -- a reader that waits is on the queue, so the wake-up makes it run
    have listed := (waking.placed reader).rWait
    simp only [WaitsForBytes] at before waits
    split at before
    case h_1 atReader | h_2 atReader =>
      rw [atReader] at listed
      have woken := state_wakeUp system (listed rfl)
      simp only [System.goto, Function.update_of_ne distinct, atReader, System.wakeUp] at waits woken
      rw [woken] at waits
      exact absurd waits (by simp)
    case h_3 => exact absurd before id
  | _ => exact yet.keep id frames (by rw [here]; rfl)

theorem read_bytes {count : Nat} {nonblock : Bool} {pc pc' : ReadPc} {reader : Process} (waking : Waking system)
    (here : system.activity process = .read count nonblock pc)
    (guarded : Guarded system (.step process fault))
    (rule : ReadStep system process count nonblock fault pc arrived pc')
    (frames : ∀ other, other ≠ process →
      Frame other system (arrived.goto process (.read count nonblock pc')))
    (waits : WaitsForBytes (arrived.goto process (.read count nonblock pc')) reader) :
    NoBytesYet (arrived.goto process (.read count nonblock pc')) := by
  have noWaker : (system.activity process).wakesReaders = false := by rw [here]; rfl
  have stays (empty : system.dev.currentLen.toNat = 0) :
      (arrived.goto process (.read count nonblock pc')).dev.currentLen.toNat = 0 := by
    refine (empty_step waking.bounded (.read here rule) empty).resolve_right ?_
    rintro ⟨buf, nonblock', atWrite, _⟩
    rw [here] at atWrite
    exact absurd atWrite (by simp)
  by_cases same : reader = process
  · subst same
    have waited (before : WaitsForBytes system reader) :
        NoBytesYet (arrived.goto reader (.read count nonblock pc')) :=
      (waking.bytes reader before).keep stays frames noWaker
    cases rule with
    | setInterruptible =>
      -- the queue is still as empty as its test found it
      simp only [Guarded, here] at guarded
      refine .inl (stays ?_)
      cases guarded with
      | inl held => exact waking.tested reader held (by rw [here]; rfl)
      | inr empty => simp [empty]
    | unlock =>
      refine waited ?_
      simpa [WaitsForBytes, here] using waits
    | _ => simp [WaitsForBytes] at waits
  · have before := (frames reader same).waitsForBytes waits
    exact (waking.bytes reader before).keep stays frames noWaker

theorem bytes_step {reader : Process} (waking : Waking system)
    (guarded : Guarded system (.step process fault)) (step : Step system process fault system')
    (frames : ∀ other, other ≠ process → Frame other system system')
    (waits : WaitsForBytes system' reader) : NoBytesYet system' := by
  have byAnother (idle : ∀ count nonblock pc, system'.activity process ≠ .read count nonblock pc) :
      NoBytesYet system := by
    have distinct : reader ≠ process := by
      rintro rfl
      simp only [WaitsForBytes] at waits
      split at waits <;> first | exact absurd waits id | exact absurd ‹_› (idle _ _ _)
    exact waking.bytes reader ((frames reader distinct).waitsForBytes waits)
  cases step with
  | returns outcome returning =>
    refine (byAnother (by simp)).keep id frames ?_
    cases here : system.activity process with
    | write buf nonblock pc => cases pc <;> simp_all [Activity.outcome, Activity.wakesReaders]
    | _ => rfl
  | read here rule => exact read_bytes waking here guarded rule frames waits
  | write here rule => exact write_bytes waking here rule frames waits
  | poll here rule =>
    have yet := byAnother (by simp)
    cases rule <;> exact yet.keep id frames (by rw [here]; rfl)
  | ioctl here rule =>
    have yet := byAnother (by simp)
    cases rule with
    | clear => exact yet.keep (fun _ => rfl) frames (by rw [here]; rfl)
    | _ => exact yet.keep id frames (by rw [here]; rfl)

/-- A reader with the mutex has seen the queue empty, and nobody else can fill it. -/
theorem tested_step {reader : Process} (waking : Waking system) (step : Step system process fault system')
    (frames : ∀ other, other ≠ process → Frame other system system')
    (held : system'.dev.mutex = some reader) (sleepy : (system'.activity reader).goesToSleep = true) :
    system'.dev.currentLen.toNat = 0 := by
  by_cases same : reader = process
  · subst same
    cases step with
    | read here rule =>
      cases rule with
      | empty empty => exact congrArg UInt32.toNat empty
      | _ => simp [Activity.goesToSleep] at sleepy
    | _ => simp [Activity.goesToSleep] at sleepy
  · have frame := frames reader same
    have heldBefore := frame.mutex.mp held
    have empty := waking.tested reader heldBefore (by rw [← frame.activity]; exact sleepy)
    refine (empty_step waking.bounded step empty).resolve_right ?_
    rintro ⟨buf, nonblock, here, _⟩
    -- a write that copies holds the mutex itself
    have placed := (waking.placed process).mutex
    rw [here] at placed
    exact same (Option.some.inj (heldBefore.symm.trans (placed rfl)))

/-! ## Every interleaving -/

theorem waking_step (waking : Waking system) (guarded : Guarded system (.step process fault))
    (step : Step system process fault system') : Waking system' := by
  have frames : ∀ other, other ≠ process → Frame other system system' := fun other =>
    step_frame step (released_of_guarded waking guarded)
  refine ⟨step_bounded waking.bounded step, ?_, fun writer => space_step waking guarded step frames,
    fun reader => bytes_step waking guarded step frames, fun reader => tested_step waking step frames⟩
  intro other
  by_cases same : other = process
  · subst same
    exact placed_step (waking.placed other) step
  · exact (frames other same).placed (waking.placed other)

/-- Signals and the poll core only wake. -/
theorem waking_of_frames (waking : Waking system) (frames : ∀ other, Frame other system system')
    (len : system'.dev.currentLen = system.dev.currentLen) : Waking system' := by
  refine ⟨?_, fun other => (frames other).placed (waking.placed other), ?_, ?_, ?_⟩
  · rw [Device.Bounded, len]
    exact waking.bounded
  · intro writer waits
    cases waking.space writer ((frames writer).waitsForSpace waits) with
    | inl full => exact .inl (by rw [len]; exact full)
    | inr waker =>
      obtain ⟨waker, held, wakes⟩ := waker
      exact .inr ⟨waker, (frames waker).mutex.mpr held, by rw [(frames waker).activity]; exact wakes⟩
  · intro reader waits
    cases waking.bytes reader ((frames reader).waitsForBytes waits) with
    | inl empty => exact .inl (by rw [len]; exact empty)
    | inr waker =>
      obtain ⟨waker, held, wakes⟩ := waker
      exact .inr ⟨waker, (frames waker).mutex.mpr held, by rw [(frames waker).activity]; exact wakes⟩
  · intro reader held sleepy
    rw [len]
    exact waking.tested reader ((frames reader).mutex.mp held) (by rw [← (frames reader).activity]; exact sleepy)

/-- A process that enters a call neither waits nor holds anything yet. -/
theorem waking_call {call : Call} (waking : Waking system) (idle : system.activity process = .idle) :
    Waking (system.goto process call.entry) := by
  have frames : ∀ other, other ≠ process → Frame other system (system.goto process call.entry) := by
    intro other distinct
    refine ⟨?_, .rfl, rfl, rfl, id⟩
    simp [distinct]
  have entry : (system.goto process call.entry).activity process = call.entry := by simp
  refine ⟨waking.bounded, ?_, ?_, ?_, ?_⟩
  · intro other
    by_cases same : other = process
    · subst same
      rw [entry]
      cases call <;> exact ⟨nofun, nofun, nofun⟩
    · exact (frames other same).placed (waking.placed other)
  · intro writer waits
    have distinct : writer ≠ process := by
      rintro rfl
      simp only [WaitsForSpace, entry] at waits
      cases call <;> exact absurd waits id
    have before := (frames writer distinct).waitsForSpace waits
    exact (waking.space writer before).keep rfl frames (by rw [idle]; rfl)
  · intro reader waits
    have distinct : reader ≠ process := by
      rintro rfl
      simp only [WaitsForBytes, entry] at waits
      cases call <;> exact absurd waits id
    have before := (frames reader distinct).waitsForBytes waits
    exact (waking.bytes reader before).keep id frames (by rw [idle]; rfl)
  · intro reader held sleepy
    have distinct : reader ≠ process := by
      rintro rfl
      rw [entry] at sleepy
      cases call <;> exact absurd sleepy Bool.false_ne_true
    have frame := frames reader distinct
    exact waking.tested reader held (by rw [← frame.activity]; exact sleepy)

theorem waking_next {event : Event Process} (waking : Waking system) (guarded : Guarded system event)
    (taken : system.next event = some system') : Waking system' := by
  cases next_cases taken with
  | call call idle => exact waking_call waking idle
  | step step => exact waking_step waking guarded step
  | external external => exact waking_of_frames waking external.frame external.len

omit [DecidableEq Process] in
theorem waking_probed : Waking (System.probed : System Process) where
  bounded := by simp [Device.Bounded, System.probed]
  placed _ := ⟨nofun, nofun, nofun⟩
  space _ waits := absurd waits id
  bytes _ waits := absurd waits id
  tested _ held := by simp [System.probed] at held

omit [DecidableEq Process] in
theorem Waking.noLostWakeUp (waking : Waking system) : NoLostWakeUp system where
  space free room writer asleep := by
    have waits : WaitsForSpace system writer := by
      simp only [AsleepForSpace] at asleep
      simp only [WaitsForSpace]
      split at asleep
      case h_1 here => simpa [here] using asleep
      case h_2 => exact absurd asleep id
    cases waking.space writer waits with
    | inl full => omega
    | inr waker =>
      obtain ⟨waker, held, _⟩ := waker
      simp [free] at held
  bytes free some reader asleep := by
    have waits : WaitsForBytes system reader := by
      simp only [AsleepForBytes] at asleep
      simp only [WaitsForBytes]
      split at asleep
      case h_1 here => simpa [here] using asleep
      case h_2 => exact absurd asleep id
    cases waking.bytes reader waits with
    | inl empty => omega
    | inr waker =>
      obtain ⟨waker, held, _⟩ := waker
      simp [free] at held

/-- For any number of processes: in every execution whose steps are harmless, no wake-up is lost
in any state reached. -/
theorem no_lost_wakeUp {past : List (System Process × Event Process)} {last : System Process}
    (execution : Execution System.next .probed past last) (harmless : Throughout Harmless past) :
    ∀ state ∈ reached past last, NoLostWakeUp state := by
  intro state member
  have guarded : Throughout Guarded past := fun taken member => (harmless taken member).guarded
  exact (execution.invariant_reached Waking Guarded waking_probed (fun _ _ _ => waking_next)
    guarded state member).noLostWakeUp

omit [DecidableEq Process] in
theorem Harmless.quiet {event : Event Process} (guarded : Guarded system event)
    (untouched : ¬ TouchesReadQueue system event) : Harmless system event :=
  ⟨guarded, fun touches => absurd touches untouched⟩

/-- A reader goes to sleep on the empty device, a write wakes it, and it takes the byte. -/
theorem no_lost_wakeUp_readThenWrite : ∃ past, ∃ last : System Bool,
    past.map Prod.snd = .call true (.read 1 false) :: List.replicate 4 (.step true none) ++
      .call false (.write [7] false) :: List.replicate 7 (.step false none) ++ List.replicate 6 (.step true none) ∧
    Execution System.next .probed past last ∧ last.dev.currentLen = 0 ∧
    ∀ state ∈ reached past last, NoLostWakeUp state := by
  have begins : Execution System.next (System.probed : System Bool) [] .probed := .start
  have asleep := ((((begins.followedBy (.call true (.read 1 false)) rfl).followedBy
    (.step true none) rfl).followedBy (.step true none) rfl).followedBy (.step true none) rfl).followedBy
    (.step true none) rfl
  have woken := (((((((asleep.followedBy (.call false (.write [7] false)) rfl).followedBy
    (.step false none) rfl).followedBy (.step false none) rfl).followedBy (.step false none) rfl).followedBy
    (.step false none) rfl).followedBy (.step false none) rfl).followedBy (.step false none) rfl).followedBy
    (.step false none) rfl
  have served := (((((woken.followedBy (.step true none) rfl).followedBy (.step true none) rfl).followedBy
    (.step true none) rfl).followedBy (.step true none) rfl).followedBy (.step true none) rfl).followedBy
    (.step true none) rfl
  refine ⟨_, _, rfl, served, rfl, no_lost_wakeUp served ?_⟩
  -- what is on the queue is nothing, and then the entry of the read that sleeps
  have nobody {state : System Bool} {event : Event Bool} (queue : state.dev.rWait = []) :
      TouchesReadQueue state event → ∀ reader, ¬ LeftBehind state reader := by
    rintro _ reader ⟨listed, _⟩
    rw [queue] at listed
    exact absurd listed List.not_mem_nil
  have reading {state : System Bool} {event : Event Bool} (queue : state.dev.rWait = [.declared true])
      (inside : (state.activity true).readEntries = 1) : TouchesReadQueue state event → ∀ reader,
        ¬ LeftBehind state reader := by
    rintro _ reader ⟨listed, returned⟩
    simp only [queue, List.mem_singleton, WaitEntry.declared.injEq] at listed
    rw [listed, inside] at returned
    exact absurd returned Nat.one_ne_zero
  simp only [throughout_append, throughout_singleton, throughout_nil, true_and, and_assoc]
  exact ⟨.quiet trivial id, ⟨trivial, nobody rfl⟩, .quiet trivial id, .quiet (.inr rfl) id,
    .quiet List.mem_cons_self id, .quiet trivial id, .quiet trivial id, .quiet trivial id, .quiet trivial id,
    .quiet trivial id, ⟨trivial, reading rfl rfl⟩, .quiet trivial id, .quiet trivial id, .quiet trivial id,
    .quiet trivial id, .quiet trivial id, .quiet trivial id, .quiet (.inl rfl) id, .quiet trivial id⟩

/-! ## The harmful steps -/

/-- `FIFO_CLEAR` strands a writer that sleeps for space. -/
theorem clear_strands {cmd : Nat} {writer : Process} {fault' : Option (List UInt8)}
    {system'' : System Process} (here : system.activity process = .ioctl cmd .clear)
    (asleep : AsleepForSpace system writer) (clears : system.next (.step process fault) = some system')
    (unlocks : system'.next (.step process fault') = some system'') : ¬ NoLostWakeUp system'' := by
  have distinct : writer ≠ process := by
    rintro rfl
    simp [AsleepForSpace, here] at asleep
  simp only [System.next, here, System.globalfifoIoctl, Option.some.injEq] at clears
  subst clears
  simp only [System.next, System.goto, Function.update_self, System.globalfifoIoctl, Option.some.injEq] at unlocks
  subst unlocks
  intro kept
  refine kept.space rfl (show 0 < globalfifoSize by decide) writer ?_
  simpa [AsleepForSpace, distinct] using asleep

/-- A read that has not seen the bytes that arrived since its test sleeps on them. -/
theorem lateSleep_strands {count : Nat} {nonblock : Bool} {fault' : Option (List UInt8)}
    {system'' : System Process} (here : system.activity process = .read count nonblock .setInterruptible)
    (some : 0 < system.dev.currentLen.toNat) (sleeps : system.next (.step process fault) = .some system')
    (unlocks : system'.next (.step process fault') = .some system'') : ¬ NoLostWakeUp system'' := by
  simp only [System.next, here, System.globalfifoRead, Option.some.injEq] at sleeps
  subst sleeps
  simp only [System.next, System.goto, Function.update_self, System.globalfifoRead, Option.some.injEq] at unlocks
  subst unlocks
  intro kept
  refine kept.bytes rfl some process ?_
  simp [AsleepForBytes]

/-- A read without the mutex that takes bytes from a full queue leaves its writers asleep. -/
theorem unlockedCopy_strands {count : Nat} {nonblock : Bool} {writer : Process}
    (here : system.activity process = .read count nonblock .copy) (taking : 0 < count)
    (free : system.dev.mutex = none) (full : system.dev.currentLen.toNat = globalfifoSize)
    (asleep : AsleepForSpace system writer) (copies : system.next (.step process none) = some system') :
    ¬ NoLostWakeUp system' := by
  have distinct : writer ≠ process := by
    rintro rfl
    simp [AsleepForSpace, here] at asleep
  have size : 0 < globalfifoSize := by decide
  simp only [System.next, here, System.globalfifoRead, clamp_eq_min, Option.isSome_none, Bool.false_eq_true,
    false_and, if_false, Option.some.injEq] at copies
  subst copies
  intro kept
  refine kept.space free ?_ writer ?_
  · simp only [System.goto, System.setData]
    rw [toNat_sub_ofNat (Nat.min_le_right _ _) (Nat.le_of_eq full)]
    omega
  · simpa [AsleepForSpace, distinct] using asleep

/-- A read that releases the mutex of somebody else while there are bytes leaves a reader asleep that was
still to be woken. -/
theorem strayUnlock_strands {count : Nat} {nonblock : Bool} {ret : Int} {reader : Process}
    (here : system.activity process = .read count nonblock (.out ret)) (some : 0 < system.dev.currentLen.toNat)
    (asleep : AsleepForBytes system reader) (unlocks : system.next (.step process fault) = .some system') :
    ¬ NoLostWakeUp system' := by
  have distinct : reader ≠ process := by
    rintro rfl
    simp [AsleepForBytes, here] at asleep
  simp only [System.next, here, System.globalfifoRead, Option.some.injEq] at unlocks
  subst unlocks
  intro kept
  refine kept.bytes rfl some reader ?_
  simpa [AsleepForBytes, distinct] using asleep

/-- The success path of a read leaves its entry behind. -/
theorem success_leavesBehind {count : Nat} {nonblock : Bool} {bytes : List UInt8} {fault' : Option (List UInt8)}
    {system'' : System Process} (here : system.activity process = .read count nonblock (.wakeWriters bytes))
    (listed : .declared process ∈ system.dev.rWait) (wakes : system.next (.step process fault) = some system')
    (returns : system'.next (.step process fault') = some system'') : LeftBehind system'' process := by
  simp only [System.next, here, System.globalfifoRead, Option.some.injEq] at wakes
  subst wakes
  simp only [System.next, System.goto, Function.update_self, System.globalfifoRead, Option.some.injEq] at returns
  subst returns
  refine ⟨listed, ?_⟩
  simp [Activity.readEntries]

/-- A read tests the empty device, a write of one byte comes and goes, and the read sleeps on it. -/
theorem not_noLostWakeUp_lateSleep : ∃ past, ∃ last : System Bool,
    past.map Prod.snd = .call true (.read 1 false) :: List.replicate 2 (.step true none) ++
      .call false (.write [7] false) :: List.replicate 10 (.step false none) ++
      List.replicate 2 (.step true none) ∧
    Execution System.next .probed past last ∧ ¬ NoLostWakeUp last := by
  have begins : Execution System.next (System.probed : System Bool) [] .probed := .start
  have tested := ((begins.followedBy (.call true (.read 1 false)) rfl).followedBy
    (.step true none) rfl).followedBy (.step true none) rfl
  have written := ((((((((((tested.followedBy (.call false (.write [7] false)) rfl).followedBy
    (.step false none) rfl).followedBy (.step false none) rfl).followedBy (.step false none) rfl).followedBy
    (.step false none) rfl).followedBy (.step false none) rfl).followedBy (.step false none) rfl).followedBy
    (.step false none) rfl).followedBy (.step false none) rfl).followedBy (.step false none) rfl).followedBy
    (.step false none) rfl
  have slept := (written.followedBy (.step true none) rfl).followedBy (.step true none) rfl
  refine ⟨_, _, rfl, slept, ?_⟩
  intro kept
  exact kept.bytes rfl (by decide) true rfl

end KernelLearning.GlobalFifo
