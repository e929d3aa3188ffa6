import KernelLearning.Bytes.Copy
import Mathlib.Logic.Function.Basic

/-!
# The globalfifo driver

`globalfifo_read`, `globalfifo_write`, `globalfifo_poll` and `globalfifo_ioctl`
as the steps of any number of processes that share one device.  A step is one
statement of the source that another process can observe: taking and releasing
the mutex, joining and leaving a wait queue, the test of `current_len`, setting
the task state, `schedule`, a copy with its update of `current_len`, a wake-up.
Signals, and the removal of what `poll_wait` registered, come from outside.
-/

namespace KernelLearning.GlobalFifo

open Bytes

/-! ## Constants -/

def globalfifoSize : Nat := 0x1000
def fifoClear : Nat := 0x01

def EAGAIN : Int := 11
def EFAULT : Int := 14
def EINVAL : Int := 22
def ERESTARTSYS : Int := 512

def POLL_IN : Nat := 0x1
def POLLOUT : Nat := 0x4
def POLLRDNORM : Nat := 0x40
def POLLWRNORM : Nat := 0x100

/-! ## The device -/

/-- `mem`, an array of `GLOBALFIFO_SIZE` bytes. -/
structure Memory where
  bytes : List UInt8
  length_bytes : bytes.length = globalfifoSize

def Memory.zero : Memory := ⟨List.replicate globalfifoSize 0, List.length_replicate⟩

/-- `copy_from_user(mem + pos, ..)`. -/
def Memory.store (mem : Memory) (pos : Nat) (bytes : List UInt8) : Memory :=
  ⟨overlay mem.bytes pos bytes, (length_overlay _ _ _).trans mem.length_bytes⟩

/-- `memcpy(mem, mem + source, count)`, lowest byte first. -/
def Memory.memcpy (mem : Memory) (source count : Nat) : Memory :=
  ⟨copyForward mem.bytes 0 source count, (length_copyForward _ _ _ _).trans mem.length_bytes⟩

/-- An entry of a wait queue: the `wait` that a call declares on its stack, or one that the poll
table registered.  A queue is a list of entries also where the frame of a `wait` is gone. -/
inductive WaitEntry (Process : Type) where
  | declared (task : Process)
  | polled (task : Process)
  deriving DecidableEq

def WaitEntry.task {Process : Type} : WaitEntry Process → Process
  | .declared task | .polled task => task

/-- `struct globalfifo_dev`; `mutex` is its owner. -/
structure Device (Process : Type) where
  currentLen : UInt32
  mem : Memory
  mutex : Option Process
  rWait : List (WaitEntry Process)
  wWait : List (WaitEntry Process)
  asyncQueue : List Process

/-- The bytes in the queue, `mem[0..current_len)`. -/
def Device.contents {Process : Type} (dev : Device Process) : List UInt8 :=
  dev.mem.bytes.take dev.currentLen.toNat

/-! ## Processes -/

inductive TaskState where
  | running
  | interruptible
  deriving DecidableEq

/-- A system call on the device, with what it is given.  `table` says whether the poll table
still registers entries, `nonblock` whether `O_NONBLOCK` is set. -/
inductive Call where
  | read (count : Nat) (nonblock : Bool)
  | write (buf : List UInt8) (nonblock : Bool)
  | poll (table : Bool)
  | ioctl (cmd : Nat)

/-- What a call returns, and for a read the bytes it put into the user's buffer. -/
structure Outcome where
  ret : Int
  bytes : List UInt8
  deriving DecidableEq

/-- The next statement of `globalfifo_read`. -/
inductive ReadPc where
  | addWait
  | test
  | setInterruptible
  | unlock
  | schedule
  | signalPending
  | lock
  | copy
  | wakeWriters (bytes : List UInt8)
  | out (ret : Int)
  | out2 (ret : Int)
  | setRunning (ret : Int)
  | ret (outcome : Outcome)

/-- The next statement of `globalfifo_write`. -/
inductive WritePc where
  | lock
  | addWait
  | test
  | setInterruptible
  | unlock
  | schedule
  | signalPending
  | relock
  | copy
  | wakeReaders (ret : Int)
  | killFasync (ret : Int)
  | out (ret : Int)
  | out2 (ret : Int)
  | setRunning (ret : Int)
  | ret (ret : Int)

inductive PollPc where
  | lock
  | pollWaitRead
  | pollWaitWrite
  | test
  | unlock (mask : Nat)
  | ret (mask : Nat)

inductive IoctlPc where
  | switch
  | lock
  | clear
  | unlock
  | ret (ret : Int)

/-- What a process is doing: nothing here, or which call and where in it. -/
inductive Activity where
  | idle
  | read (count : Nat) (nonblock : Bool) (pc : ReadPc)
  | write (buf : List UInt8) (nonblock : Bool) (pc : WritePc)
  | poll (table : Bool) (pc : PollPc)
  | ioctl (cmd : Nat) (pc : IoctlPc)

def Call.entry : Call → Activity
  | .read count nonblock => .read count nonblock .addWait
  | .write buf nonblock => .write buf nonblock .lock
  | .poll table => .poll table .lock
  | .ioctl cmd => .ioctl cmd .switch

/-- What the call is about to return, when it is about to return. -/
def Activity.outcome : Activity → Option Outcome
  | .read _ _ (.ret outcome) => some outcome
  | .write _ _ (.ret ret) => some ⟨ret, []⟩
  | .poll _ (.ret mask) => some ⟨mask, []⟩
  | .ioctl _ (.ret ret) => some ⟨ret, []⟩
  | _ => none

structure System (Process : Type) where
  dev : Device Process
  state : Process → TaskState
  pending : Process → Bool
  activity : Process → Activity

variable {Process : Type} [DecidableEq Process]

/-- After the probe: a zeroed device, taken to have a free mutex and empty queues although the probe
calls neither `mutex_init` nor `init_waitqueue_head`, and nobody in a call. -/
def System.probed : System Process where
  dev := ⟨0, .zero, none, [], [], []⟩
  state := fun _ => .running
  pending := fun _ => false
  activity := fun _ => .idle

/-! ## Effects -/

namespace System

@[simp] def goto (system : System Process) (process : Process) (activity : Activity) : System Process :=
  { system with activity := Function.update system.activity process activity }

@[simp] def setState (system : System Process) (process : Process) (state : TaskState) : System Process :=
  { system with state := Function.update system.state process state }

/-- `mutex_lock`, which waits while the mutex is held. -/
def mutexLock (system : System Process) (process : Process) : Option (System Process) :=
  match system.dev.mutex with
  | none => some { system with dev := { system.dev with mutex := some process } }
  | some _ => none

/-- `mutex_unlock` releases the mutex whoever holds it. -/
@[simp] def mutexUnlock (system : System Process) : System Process :=
  { system with dev := { system.dev with mutex := none } }

@[simp] def setReadQueue (system : System Process) (queue : List (WaitEntry Process)) : System Process :=
  { system with dev := { system.dev with rWait := queue } }

@[simp] def setWriteQueue (system : System Process) (queue : List (WaitEntry Process)) : System Process :=
  { system with dev := { system.dev with wWait := queue } }

@[simp] def setData (system : System Process) (currentLen : UInt32) (mem : Memory) : System Process :=
  { system with dev := { system.dev with currentLen := currentLen, mem := mem } }

/-- `wake_up_interruptible`: the tasks of all entries become runnable. -/
@[simp] def wakeUp (system : System Process) (queue : List (WaitEntry Process)) : System Process :=
  { system with
    state := fun task => if task ∈ queue.map WaitEntry.task then .running else system.state task }

/-- A signal arrives at each of the tasks; one that sleeps interruptibly becomes runnable. -/
@[simp] def signal (system : System Process) (tasks : List Process) : System Process :=
  { system with
    pending := fun task => decide (task ∈ tasks) || system.pending task
    state := fun task => if task ∈ tasks then .running else system.state task }

/-- `schedule()`: a task that is not running stays here until it is woken, except that a
pending signal makes it running again at once. -/
def schedule (system : System Process) (process : Process) : Option (System Process) :=
  match system.state process with
  | .running => some system
  | .interruptible =>
    if system.pending process then some (system.setState process .running) else none

omit [DecidableEq Process] in
theorem mutexLock_eq_some {system system' : System Process} {process : Process} :
    system.mutexLock process = some system' ↔
      system.dev.mutex = none ∧
        { system with dev := { system.dev with mutex := some process } } = system' := by
  cases owner : system.dev.mutex with
  | none => simp [mutexLock, owner]
  | some holder => simp [mutexLock, owner]

theorem schedule_eq_some {system system' : System Process} {process : Process} :
    system.schedule process = some system' ↔
      system.state process = .running ∧ system = system' ∨
        system.state process = .interruptible ∧ system.pending process = true ∧
          system.setState process .running = system' := by
  cases current : system.state process with
  | running => simp [schedule, current]
  | interruptible => simp [schedule, current]

/-! ## The functions of the driver -/

/-- One statement of `globalfifo_read`.  `fault` is what `copy_to_user` left in the user's
buffer if it failed. -/
def globalfifoRead (system : System Process) (process : Process) (count : Nat) (nonblock : Bool)
    (fault : Option (List UInt8)) (pc : ReadPc) : Option (System Process) :=
  let goto (system : System Process) (pc : ReadPc) := system.goto process (.read count nonblock pc)
  match pc with
  | .addWait => some (goto (system.setReadQueue (.declared process :: system.dev.rWait)) .test)
  | .test =>
    if system.dev.currentLen = 0 then
      if nonblock then some (goto system (.out (-EAGAIN))) else some (goto system .setInterruptible)
    else some (goto system .copy)
  | .setInterruptible => some (goto (system.setState process .interruptible) .unlock)
  | .unlock => some (goto system.mutexUnlock .schedule)
  | .schedule => (system.schedule process).map (goto · .signalPending)
  | .signalPending =>
    -- `goto out2` leaves without the mutex; otherwise back to the test with it
    if system.pending process then some (goto system (.out2 (-ERESTARTSYS))) else some (goto system .lock)
  | .lock => (system.mutexLock process).map (goto · .test)
  | .copy =>
    let len := system.dev.currentLen
    let count := if count > len.toNat then len.toNat else count
    if fault.isSome ∧ count ≠ 0 then some (goto system (.out (-EFAULT)))
    else
      let bytes := system.dev.mem.bytes.take count
      let moved := system.dev.mem.memcpy count (len - UInt32.ofNat count).toNat
      some (goto (system.setData (len - UInt32.ofNat count) moved) (.wakeWriters bytes))
  | .wakeWriters bytes =>
    -- the success path returns from here, past both labels
    some (goto (system.wakeUp system.dev.wWait) (.ret ⟨bytes.length, bytes⟩))
  | .out ret => some (goto system.mutexUnlock (.out2 ret))
  | .out2 ret => some (goto (system.setReadQueue (system.dev.rWait.erase (.declared process))) (.setRunning ret))
  | .setRunning ret => some (goto (system.setState process .running) (.ret ⟨ret, []⟩))
  | .ret _ => some (system.goto process .idle)

/-- One statement of `globalfifo_write`.  `fault` is what `copy_from_user` left in `mem` if it
failed. -/
def globalfifoWrite (system : System Process) (process : Process) (buf : List UInt8) (nonblock : Bool)
    (fault : Option (List UInt8)) (pc : WritePc) : Option (System Process) :=
  let goto (system : System Process) (pc : WritePc) := system.goto process (.write buf nonblock pc)
  match pc with
  | .lock => (system.mutexLock process).map (goto · .addWait)
  | .addWait => some (goto (system.setWriteQueue (.declared process :: system.dev.wWait)) .test)
  | .test =>
    if system.dev.currentLen = UInt32.ofNat globalfifoSize then
      if nonblock then some (goto system (.out (-EAGAIN))) else some (goto system .setInterruptible)
    else some (goto system .copy)
  | .setInterruptible => some (goto (system.setState process .interruptible) .unlock)
  | .unlock => some (goto system.mutexUnlock .schedule)
  | .schedule => (system.schedule process).map (goto · .signalPending)
  | .signalPending =>
    if system.pending process then some (goto system (.out2 (-ERESTARTSYS))) else some (goto system .relock)
  | .relock => (system.mutexLock process).map (goto · .test)
  | .copy =>
    let len := system.dev.currentLen
    let free := (UInt32.ofNat globalfifoSize - len).toNat
    let count := if buf.length > free then free else buf.length
    match fault with
    | some left =>
      if count ≠ 0 then
        let stored := system.dev.mem.store len.toNat (left.take count)
        some (goto (system.setData len stored) (.out (-EFAULT)))
      else some (goto system (.wakeReaders 0))
    | none =>
      let stored := system.dev.mem.store len.toNat (buf.take count)
      some (goto (system.setData (len + UInt32.ofNat count) stored) (.wakeReaders count))
  | .wakeReaders ret => some (goto (system.wakeUp system.dev.rWait) (.killFasync ret))
  | .killFasync ret => some (goto (system.signal system.dev.asyncQueue) (.out ret))
  | .out ret => some (goto system.mutexUnlock (.out2 ret))
  | .out2 ret => some (goto (system.setWriteQueue (system.dev.wWait.erase (.declared process))) (.setRunning ret))
  | .setRunning ret => some (goto (system.setState process .running) (.ret ret))
  | .ret _ => some (system.goto process .idle)

/-- One statement of `globalfifo_poll`. -/
def globalfifoPoll (system : System Process) (process : Process) (table : Bool) (pc : PollPc) :
    Option (System Process) :=
  let goto (system : System Process) (pc : PollPc) := system.goto process (.poll table pc)
  let entries : List (WaitEntry Process) := if table then [.polled process] else []
  match pc with
  | .lock => (system.mutexLock process).map (goto · .pollWaitRead)
  | .pollWaitRead => some (goto (system.setReadQueue (entries ++ system.dev.rWait)) .pollWaitWrite)
  | .pollWaitWrite => some (goto (system.setWriteQueue (entries ++ system.dev.wWait)) .test)
  | .test =>
    let readable := if system.dev.currentLen ≠ 0 then POLL_IN ||| POLLRDNORM else 0
    let writable :=
      if system.dev.currentLen ≠ UInt32.ofNat globalfifoSize then POLLOUT ||| POLLWRNORM else 0
    some (goto system (.unlock (readable ||| writable)))
  | .unlock mask => some (goto system.mutexUnlock (.ret mask))
  | .ret _ => some (system.goto process .idle)

/-- One statement of `globalfifo_ioctl`. -/
def globalfifoIoctl (system : System Process) (process : Process) (cmd : Nat) (pc : IoctlPc) :
    Option (System Process) :=
  let goto (system : System Process) (pc : IoctlPc) := system.goto process (.ioctl cmd pc)
  match pc with
  | .switch => if cmd = fifoClear then some (goto system .lock) else some (goto system (.ret (-EINVAL)))
  | .lock => (system.mutexLock process).map (goto · .clear)
  | .clear => some (goto (system.setData 0 .zero) .unlock)
  | .unlock => some (goto system.mutexUnlock (.ret 0))
  | .ret _ => some (system.goto process .idle)

end System

/-! ## The system -/

inductive Event (Process : Type) where
  | call (process : Process) (call : Call)
  | step (process : Process) (fault : Option (List UInt8))
  | signal (process : Process)
  | handled (process : Process)
  | pollEnd (process : Process)

/-- One event: a process makes a call or executes its next statement, a signal arrives, a
process outside of a call handles its signals, the poll core takes its entries back. -/
def System.next (system : System Process) : Event Process → Option (System Process)
  | .call process call =>
    match system.activity process with
    | .idle => some (system.goto process call.entry)
    | _ => none
  | .step process fault =>
    match system.activity process with
    | .idle => none
    | .read count nonblock pc => system.globalfifoRead process count nonblock fault pc
    | .write buf nonblock pc => system.globalfifoWrite process buf nonblock fault pc
    | .poll table pc => system.globalfifoPoll process table pc
    | .ioctl cmd pc => system.globalfifoIoctl process cmd pc
  | .signal process => some (system.signal [process])
  | .handled process =>
    match system.activity process with
    | .idle => some { system with pending := Function.update system.pending process false }
    | _ => none
  | .pollEnd process =>
    let others (queue : List (WaitEntry Process)) := queue.filter (· ≠ .polled process)
    some ((system.setReadQueue (others system.dev.rWait)).setWriteQueue (others system.dev.wWait))

end KernelLearning.GlobalFifo
