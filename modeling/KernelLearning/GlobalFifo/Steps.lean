import KernelLearning.GlobalFifo.Device

/-!
# The statements of the driver, one rule each

Each relation lists what a statement of its function does: the condition under
which it is taken, the system it leaves, and the next statement.  The inversion
lemmas say that a step of a process is one of the rules or the return.
-/

namespace KernelLearning.GlobalFifo

open Bytes

variable {Process : Type} [DecidableEq Process]

/-- `count` as both copies use it. -/
theorem clamp_eq_min (count limit : Nat) : (if count > limit then limit else count) = min count limit := by
  split <;> omega

/-! ## The rules -/

/-- The statements of `globalfifo_read`. -/
inductive ReadStep (system : System Process) (process : Process) (count : Nat) (nonblock : Bool)
    (fault : Option (List UInt8)) : ReadPc → System Process → ReadPc → Prop where
  | addWait : ReadStep system process count nonblock fault .addWait
      (system.setReadQueue (.declared process :: system.dev.rWait)) .test
  | again (empty : system.dev.currentLen = 0) (nonblocking : nonblock = true) :
      ReadStep system process count nonblock fault .test system (.out (-EAGAIN))
  | empty (empty : system.dev.currentLen = 0) (blocking : nonblock = false) :
      ReadStep system process count nonblock fault .test system .setInterruptible
  | filled (filled : system.dev.currentLen ≠ 0) :
      ReadStep system process count nonblock fault .test system .copy
  | setInterruptible : ReadStep system process count nonblock fault .setInterruptible
      (system.setState process .interruptible) .unlock
  | unlock : ReadStep system process count nonblock fault .unlock system.mutexUnlock .schedule
  | woken (running : system.state process = .running) :
      ReadStep system process count nonblock fault .schedule system .signalPending
  | interrupted (asleep : system.state process = .interruptible) (pending : system.pending process = true) :
      ReadStep system process count nonblock fault .schedule (system.setState process .running) .signalPending
  | restart (pending : system.pending process = true) :
      ReadStep system process count nonblock fault .signalPending system (.out2 (-ERESTARTSYS))
  | retry (quiet : system.pending process = false) :
      ReadStep system process count nonblock fault .signalPending system .lock
  | lock (free : system.dev.mutex = none) : ReadStep system process count nonblock fault .lock
      { system with dev := { system.dev with mutex := some process } } .test
  | fault : ReadStep system process count nonblock fault .copy system (.out (-EFAULT))
  | copy (taking : Nat) (taking_eq : taking = min count system.dev.currentLen.toNat)
      (copied : fault = none ∨ taking = 0) :
      ReadStep system process count nonblock fault .copy
        (system.setData (system.dev.currentLen - UInt32.ofNat taking)
          (system.dev.mem.memcpy taking (system.dev.currentLen - UInt32.ofNat taking).toNat))
        (.wakeWriters (system.dev.mem.bytes.take taking))
  | wakeWriters (bytes : List UInt8) : ReadStep system process count nonblock fault (.wakeWriters bytes)
      (system.wakeUp system.dev.wWait) (.ret ⟨bytes.length, bytes⟩)
  | out (ret : Int) : ReadStep system process count nonblock fault (.out ret) system.mutexUnlock (.out2 ret)
  | out2 (ret : Int) : ReadStep system process count nonblock fault (.out2 ret)
      (system.setReadQueue (system.dev.rWait.erase (.declared process))) (.setRunning ret)
  | setRunning (ret : Int) : ReadStep system process count nonblock fault (.setRunning ret)
      (system.setState process .running) (.ret ⟨ret, []⟩)

/-- The statements of `globalfifo_write`. -/
inductive WriteStep (system : System Process) (process : Process) (buf : List UInt8) (nonblock : Bool) :
    WritePc → System Process → WritePc → Prop where
  | lock (free : system.dev.mutex = none) : WriteStep system process buf nonblock .lock
      { system with dev := { system.dev with mutex := some process } } .addWait
  | addWait : WriteStep system process buf nonblock .addWait
      (system.setWriteQueue (.declared process :: system.dev.wWait)) .test
  | again (full : system.dev.currentLen = UInt32.ofNat globalfifoSize) (nonblocking : nonblock = true) :
      WriteStep system process buf nonblock .test system (.out (-EAGAIN))
  | full (full : system.dev.currentLen = UInt32.ofNat globalfifoSize) (blocking : nonblock = false) :
      WriteStep system process buf nonblock .test system .setInterruptible
  | room (room : system.dev.currentLen ≠ UInt32.ofNat globalfifoSize) :
      WriteStep system process buf nonblock .test system .copy
  | setInterruptible : WriteStep system process buf nonblock .setInterruptible
      (system.setState process .interruptible) .unlock
  | unlock : WriteStep system process buf nonblock .unlock system.mutexUnlock .schedule
  | woken (running : system.state process = .running) :
      WriteStep system process buf nonblock .schedule system .signalPending
  | interrupted (asleep : system.state process = .interruptible) (pending : system.pending process = true) :
      WriteStep system process buf nonblock .schedule (system.setState process .running) .signalPending
  | restart (pending : system.pending process = true) :
      WriteStep system process buf nonblock .signalPending system (.out2 (-ERESTARTSYS))
  | retry (quiet : system.pending process = false) :
      WriteStep system process buf nonblock .signalPending system .relock
  | relock (free : system.dev.mutex = none) : WriteStep system process buf nonblock .relock
      { system with dev := { system.dev with mutex := some process } } .test
  | fault (left : List UInt8) : WriteStep system process buf nonblock .copy
      (system.setData system.dev.currentLen (system.dev.mem.store system.dev.currentLen.toNat left))
      (.out (-EFAULT))
  | nothing : WriteStep system process buf nonblock .copy system (.wakeReaders 0)
  | copy (accepting : Nat) (accepting_eq : accepting =
      min buf.length (UInt32.ofNat globalfifoSize - system.dev.currentLen).toNat) :
      WriteStep system process buf nonblock .copy
        (system.setData (system.dev.currentLen + UInt32.ofNat accepting)
          (system.dev.mem.store system.dev.currentLen.toNat (buf.take accepting)))
        (.wakeReaders accepting)
  | wakeReaders (ret : Int) : WriteStep system process buf nonblock (.wakeReaders ret)
      (system.wakeUp system.dev.rWait) (.killFasync ret)
  | killFasync (ret : Int) : WriteStep system process buf nonblock (.killFasync ret)
      (system.signal system.dev.asyncQueue) (.out ret)
  | out (ret : Int) : WriteStep system process buf nonblock (.out ret) system.mutexUnlock (.out2 ret)
  | out2 (ret : Int) : WriteStep system process buf nonblock (.out2 ret)
      (system.setWriteQueue (system.dev.wWait.erase (.declared process))) (.setRunning ret)
  | setRunning (ret : Int) : WriteStep system process buf nonblock (.setRunning ret)
      (system.setState process .running) (.ret ret)

/-- The statements of `globalfifo_poll`; `entries` are those that the poll table registers. -/
inductive PollStep (system : System Process) (process : Process) :
    PollPc → System Process → PollPc → Prop where
  | lock (free : system.dev.mutex = none) : PollStep system process .lock
      { system with dev := { system.dev with mutex := some process } } .pollWaitRead
  | pollWaitRead (entries : List (WaitEntry Process)) (polled : ∀ entry ∈ entries, entry = .polled process) :
      PollStep system process .pollWaitRead
        (system.setReadQueue (entries ++ system.dev.rWait)) .pollWaitWrite
  | pollWaitWrite (entries : List (WaitEntry Process)) (polled : ∀ entry ∈ entries, entry = .polled process) :
      PollStep system process .pollWaitWrite (system.setWriteQueue (entries ++ system.dev.wWait)) .test
  | test (mask : Nat) : PollStep system process .test system (.unlock mask)
  | unlock (mask : Nat) : PollStep system process (.unlock mask) system.mutexUnlock (.ret mask)

/-- The statements of `globalfifo_ioctl`. -/
inductive IoctlStep (system : System Process) (process : Process) (cmd : Nat) :
    IoctlPc → System Process → IoctlPc → Prop where
  | clearing (clearing : cmd = fifoClear) : IoctlStep system process cmd .switch system .lock
  | unknown (unknown : cmd ≠ fifoClear) : IoctlStep system process cmd .switch system (.ret (-EINVAL))
  | lock (free : system.dev.mutex = none) : IoctlStep system process cmd .lock
      { system with dev := { system.dev with mutex := some process } } .clear
  | clear : IoctlStep system process cmd .clear (system.setData 0 .zero) .unlock
  | unlock : IoctlStep system process cmd .unlock system.mutexUnlock (.ret 0)

/-- What a process in a call does with its next statement. -/
inductive Step (system : System Process) (process : Process) (fault : Option (List UInt8)) :
    System Process → Prop where
  | returns (outcome : Outcome) (returning : (system.activity process).outcome = some outcome) :
      Step system process fault (system.goto process .idle)
  | read {count nonblock pc arrived pc'} (here : system.activity process = .read count nonblock pc)
      (rule : ReadStep system process count nonblock fault pc arrived pc') :
      Step system process fault (arrived.goto process (.read count nonblock pc'))
  | write {buf nonblock pc arrived pc'} (here : system.activity process = .write buf nonblock pc)
      (rule : WriteStep system process buf nonblock pc arrived pc') :
      Step system process fault (arrived.goto process (.write buf nonblock pc'))
  | poll {table pc arrived pc'} (here : system.activity process = .poll table pc)
      (rule : PollStep system process pc arrived pc') :
      Step system process fault (arrived.goto process (.poll table pc'))
  | ioctl {cmd pc arrived pc'} (here : system.activity process = .ioctl cmd pc)
      (rule : IoctlStep system process cmd pc arrived pc') :
      Step system process fault (arrived.goto process (.ioctl cmd pc'))

/-! ## Inversion -/

variable {system system' : System Process} {process : Process} {fault : Option (List UInt8)}

theorem read_cases {count : Nat} {nonblock : Bool} {pc : ReadPc}
    (taken : system.globalfifoRead process count nonblock fault pc = some system') :
    (∃ outcome, pc = .ret outcome ∧ system' = system.goto process .idle) ∨
      ∃ arrived pc', ReadStep system process count nonblock fault pc arrived pc' ∧
        system' = arrived.goto process (.read count nonblock pc') := by
  cases pc with
  | ret outcome => exact .inl ⟨outcome, rfl, (Option.some.inj taken).symm⟩
  | test =>
    right
    simp only [System.globalfifoRead] at taken
    split at taken
    case isTrue empty =>
      split at taken
      case isTrue nonblocking => exact ⟨_, _, .again empty nonblocking, (Option.some.inj taken).symm⟩
      case isFalse blocking =>
        exact ⟨_, _, .empty empty (Bool.eq_false_iff.mpr blocking), (Option.some.inj taken).symm⟩
    case isFalse filled => exact ⟨_, _, .filled filled, (Option.some.inj taken).symm⟩
  | signalPending =>
    right
    simp only [System.globalfifoRead] at taken
    split at taken
    case isTrue pending => exact ⟨_, _, .restart pending, (Option.some.inj taken).symm⟩
    case isFalse quiet => exact ⟨_, _, .retry (Bool.eq_false_iff.mpr quiet), (Option.some.inj taken).symm⟩
  | schedule =>
    right
    simp only [System.globalfifoRead, Option.map_eq_some_iff, System.schedule_eq_some] at taken
    obtain ⟨left, (⟨running, rfl⟩ | ⟨asleep, pending, rfl⟩), rfl⟩ := taken
    · exact ⟨_, _, .woken running, rfl⟩
    · exact ⟨_, _, .interrupted asleep pending, rfl⟩
  | lock =>
    right
    simp only [System.globalfifoRead, Option.map_eq_some_iff, System.mutexLock_eq_some] at taken
    obtain ⟨locked, ⟨free, rfl⟩, rfl⟩ := taken
    exact ⟨_, _, .lock free, rfl⟩
  | copy =>
    right
    simp only [System.globalfifoRead, clamp_eq_min] at taken
    split at taken
    case isTrue faulting => exact ⟨_, _, .fault, (Option.some.inj taken).symm⟩
    case isFalse copying =>
      -- a fault that does not show: there is nothing to copy
      have copied : fault = none ∨ min count system.dev.currentLen.toNat = 0 := by
        cases fault with
        | none => exact .inl rfl
        | some left =>
          right
          simpa only [Option.isSome_some, true_and, Decidable.not_not] using copying
      exact ⟨_, _, .copy _ rfl copied, (Option.some.inj taken).symm⟩
  | addWait => exact .inr ⟨_, _, .addWait, (Option.some.inj taken).symm⟩
  | setInterruptible => exact .inr ⟨_, _, .setInterruptible, (Option.some.inj taken).symm⟩
  | unlock => exact .inr ⟨_, _, .unlock, (Option.some.inj taken).symm⟩
  | wakeWriters bytes => exact .inr ⟨_, _, .wakeWriters bytes, (Option.some.inj taken).symm⟩
  | out ret => exact .inr ⟨_, _, .out ret, (Option.some.inj taken).symm⟩
  | out2 ret => exact .inr ⟨_, _, .out2 ret, (Option.some.inj taken).symm⟩
  | setRunning ret => exact .inr ⟨_, _, .setRunning ret, (Option.some.inj taken).symm⟩

theorem write_cases {buf : List UInt8} {nonblock : Bool} {pc : WritePc}
    (taken : system.globalfifoWrite process buf nonblock fault pc = some system') :
    (∃ ret, pc = .ret ret ∧ system' = system.goto process .idle) ∨
      ∃ arrived pc', WriteStep system process buf nonblock pc arrived pc' ∧
        system' = arrived.goto process (.write buf nonblock pc') := by
  cases pc with
  | ret ret => exact .inl ⟨ret, rfl, (Option.some.inj taken).symm⟩
  | test =>
    right
    simp only [System.globalfifoWrite] at taken
    split at taken
    case isTrue full =>
      split at taken
      case isTrue nonblocking => exact ⟨_, _, .again full nonblocking, (Option.some.inj taken).symm⟩
      case isFalse blocking =>
        exact ⟨_, _, .full full (Bool.eq_false_iff.mpr blocking), (Option.some.inj taken).symm⟩
    case isFalse room => exact ⟨_, _, .room room, (Option.some.inj taken).symm⟩
  | signalPending =>
    right
    simp only [System.globalfifoWrite] at taken
    split at taken
    case isTrue pending => exact ⟨_, _, .restart pending, (Option.some.inj taken).symm⟩
    case isFalse quiet => exact ⟨_, _, .retry (Bool.eq_false_iff.mpr quiet), (Option.some.inj taken).symm⟩
  | schedule =>
    right
    simp only [System.globalfifoWrite, Option.map_eq_some_iff, System.schedule_eq_some] at taken
    obtain ⟨left, (⟨running, rfl⟩ | ⟨asleep, pending, rfl⟩), rfl⟩ := taken
    · exact ⟨_, _, .woken running, rfl⟩
    · exact ⟨_, _, .interrupted asleep pending, rfl⟩
  | lock =>
    right
    simp only [System.globalfifoWrite, Option.map_eq_some_iff, System.mutexLock_eq_some] at taken
    obtain ⟨locked, ⟨free, rfl⟩, rfl⟩ := taken
    exact ⟨_, _, .lock free, rfl⟩
  | relock =>
    right
    simp only [System.globalfifoWrite, Option.map_eq_some_iff, System.mutexLock_eq_some] at taken
    obtain ⟨locked, ⟨free, rfl⟩, rfl⟩ := taken
    exact ⟨_, _, .relock free, rfl⟩
  | copy =>
    right
    simp only [System.globalfifoWrite, clamp_eq_min] at taken
    split at taken
    case h_1 left =>
      split at taken
      · exact ⟨_, _, .fault _, (Option.some.inj taken).symm⟩
      -- a fault of a copy of nothing has no effect
      · exact ⟨_, _, .nothing, (Option.some.inj taken).symm⟩
    case h_2 => exact ⟨_, _, .copy _ rfl, (Option.some.inj taken).symm⟩
  | addWait => exact .inr ⟨_, _, .addWait, (Option.some.inj taken).symm⟩
  | setInterruptible => exact .inr ⟨_, _, .setInterruptible, (Option.some.inj taken).symm⟩
  | unlock => exact .inr ⟨_, _, .unlock, (Option.some.inj taken).symm⟩
  | wakeReaders ret => exact .inr ⟨_, _, .wakeReaders ret, (Option.some.inj taken).symm⟩
  | killFasync ret => exact .inr ⟨_, _, .killFasync ret, (Option.some.inj taken).symm⟩
  | out ret => exact .inr ⟨_, _, .out ret, (Option.some.inj taken).symm⟩
  | out2 ret => exact .inr ⟨_, _, .out2 ret, (Option.some.inj taken).symm⟩
  | setRunning ret => exact .inr ⟨_, _, .setRunning ret, (Option.some.inj taken).symm⟩

theorem poll_cases {table : Bool} {pc : PollPc}
    (taken : system.globalfifoPoll process table pc = some system') :
    (∃ mask, pc = .ret mask ∧ system' = system.goto process .idle) ∨
      ∃ arrived pc', PollStep system process pc arrived pc' ∧
        system' = arrived.goto process (.poll table pc') := by
  have polled : ∀ entry ∈ (if table then [.polled process] else [] : List (WaitEntry Process)),
      entry = .polled process := by
    cases table <;> simp
  cases pc with
  | ret mask => exact .inl ⟨mask, rfl, (Option.some.inj taken).symm⟩
  | lock =>
    right
    simp only [System.globalfifoPoll, Option.map_eq_some_iff, System.mutexLock_eq_some] at taken
    obtain ⟨locked, ⟨free, rfl⟩, rfl⟩ := taken
    exact ⟨_, _, .lock free, rfl⟩
  | pollWaitRead => exact .inr ⟨_, _, .pollWaitRead _ polled, (Option.some.inj taken).symm⟩
  | pollWaitWrite => exact .inr ⟨_, _, .pollWaitWrite _ polled, (Option.some.inj taken).symm⟩
  | test => exact .inr ⟨_, _, .test _, (Option.some.inj taken).symm⟩
  | unlock mask => exact .inr ⟨_, _, .unlock mask, (Option.some.inj taken).symm⟩

theorem ioctl_cases {cmd : Nat} {pc : IoctlPc}
    (taken : system.globalfifoIoctl process cmd pc = some system') :
    (∃ ret, pc = .ret ret ∧ system' = system.goto process .idle) ∨
      ∃ arrived pc', IoctlStep system process cmd pc arrived pc' ∧
        system' = arrived.goto process (.ioctl cmd pc') := by
  cases pc with
  | ret ret => exact .inl ⟨ret, rfl, (Option.some.inj taken).symm⟩
  | switch =>
    right
    simp only [System.globalfifoIoctl] at taken
    split at taken
    case isTrue clearing => exact ⟨_, _, .clearing clearing, (Option.some.inj taken).symm⟩
    case isFalse unknown => exact ⟨_, _, .unknown unknown, (Option.some.inj taken).symm⟩
  | lock =>
    right
    simp only [System.globalfifoIoctl, Option.map_eq_some_iff, System.mutexLock_eq_some] at taken
    obtain ⟨locked, ⟨free, rfl⟩, rfl⟩ := taken
    exact ⟨_, _, .lock free, rfl⟩
  | clear => exact .inr ⟨_, _, .clear, (Option.some.inj taken).symm⟩
  | unlock => exact .inr ⟨_, _, .unlock, (Option.some.inj taken).symm⟩

/-- A step of a process is one of the rules. -/
theorem step_of_next (taken : system.next (.step process fault) = some system') :
    Step system process fault system' := by
  cases here : system.activity process with
  | idle => simp [System.next, here] at taken
  | read count nonblock pc =>
    simp only [System.next, here] at taken
    obtain ⟨outcome, rfl, rfl⟩ | ⟨arrived, pc', rule, rfl⟩ := read_cases taken
    · exact .returns outcome (by rw [here]; rfl)
    · exact .read here rule
  | write buf nonblock pc =>
    simp only [System.next, here] at taken
    obtain ⟨ret, rfl, rfl⟩ | ⟨arrived, pc', rule, rfl⟩ := write_cases taken
    · exact .returns ⟨ret, []⟩ (by rw [here]; rfl)
    · exact .write here rule
  | poll table pc =>
    simp only [System.next, here] at taken
    obtain ⟨mask, rfl, rfl⟩ | ⟨arrived, pc', rule, rfl⟩ := poll_cases taken
    · exact .returns ⟨mask, []⟩ (by rw [here]; rfl)
    · exact .poll here rule
  | ioctl cmd pc =>
    simp only [System.next, here] at taken
    obtain ⟨ret, rfl, rfl⟩ | ⟨arrived, pc', rule, rfl⟩ := ioctl_cases taken
    · exact .returns ⟨ret, []⟩ (by rw [here]; rfl)
    · exact .ioctl here rule

/-! ## The other events -/

/-- What a signal, its handling and the poll core leave alone. -/
structure External (system system' : System Process) : Prop where
  activity : system'.activity = system.activity
  mutex : system'.dev.mutex = system.dev.mutex
  len : system'.dev.currentLen = system.dev.currentLen
  mem : system'.dev.mem = system.dev.mem
  rWait (process : Process) :
    system'.dev.rWait.count (.declared process) = system.dev.rWait.count (.declared process)
  wWait (process : Process) :
    system'.dev.wWait.count (.declared process) = system.dev.wWait.count (.declared process)
  running (process : Process) : system.state process = .running → system'.state process = .running

/-- What an event does: a call begins, a call goes on, or something happens outside of the calls. -/
inductive Next (system : System Process) : Event Process → System Process → Prop where
  | call {process : Process} (call : Call) (idle : system.activity process = .idle) :
      Next system (.call process call) (system.goto process call.entry)
  | step {process : Process} {fault : Option (List UInt8)} {system' : System Process}
      (step : Step system process fault system') : Next system (.step process fault) system'
  | external {event : Event Process} {system' : System Process} (external : External system system') :
      Next system event system'

theorem external_signal (system : System Process) (process : Process) :
    External system (system.signal [process]) := by
  refine ⟨rfl, rfl, rfl, rfl, fun _ => rfl, fun _ => rfl, ?_⟩
  intro other running
  simp [running]

theorem count_pollEnd (queue : List (WaitEntry Process)) (other : Process) :
    (queue.filter (· ≠ .polled process)).count (.declared other) = queue.count (.declared other) := by
  rw [List.count_filter]
  simp

/-- An event that happens is one of these. -/
theorem next_cases {event : Event Process} (taken : system.next event = some system') :
    Next system event system' := by
  cases event with
  | call process call =>
    simp only [System.next] at taken
    split at taken
    case h_1 idle =>
      obtain rfl := Option.some.inj taken
      exact .call call idle
    case h_2 => simp at taken
  | step process fault => exact .step (step_of_next taken)
  | signal process =>
    obtain rfl := Option.some.inj taken
    exact .external (external_signal system process)
  | handled process =>
    -- only a process outside of the calls handles its signals
    simp only [System.next] at taken
    split at taken
    · obtain rfl := Option.some.inj taken
      exact .external ⟨rfl, rfl, rfl, rfl, fun _ => rfl, fun _ => rfl, fun _ => id⟩
    · simp at taken
  | pollEnd process =>
    obtain rfl := Option.some.inj taken
    exact .external ⟨rfl, rfl, rfl, rfl, count_pollEnd _, count_pollEnd _, fun _ => id⟩

end KernelLearning.GlobalFifo
