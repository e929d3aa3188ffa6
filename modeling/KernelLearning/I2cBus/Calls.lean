import KernelLearning.I2cBus.Completion

/-!
# Calls of the adapter

Transfers one after the other, as the i2c core makes them, with interrupts
between and during them.  `i2c_demo_xfer` is taken apart where an interrupt can
come in between: up to `reinit_completion`, `i2c_demo_start_transfer`, and from
the test of `time_left` on.
-/

namespace KernelLearning.I2cBus

open Interaction Machine

/-! ## The system -/

/-- How far a call has come. -/
inductive Phase where
  | begun
  | started
  deriving DecidableEq

/-- What the handler signalled: the error that it stored, and the accesses since the completion
was initialised. -/
structure Signal where
  msgErr : UInt32
  accesses : List Access

/-- The machine, the call under way with its messages, and what was signalled since its
`reinit_completion`. -/
structure Adapter where
  machine : Machine
  transfer : Option (List I2cMsg × Phase)
  signals : List Signal

def Adapter.probed : Adapter := ⟨.probed, none, []⟩

/-- A call with its messages, its two further parts, an interrupt with what the hardware answers,
and memory that is used for something else between the calls: the buffers, and the array behind a
`curr_msg` that was left there. -/
inductive Event where
  | xfer (msgs : List I2cMsg)
  | start
  | finish (timeLeft : UInt64)
  | interrupt (answers : Nat → UInt32)
  | reuse (memory : Nat → UInt8) (msgs : List I2cMsg)

namespace Adapter

/-- The handler, with a record of what it signalled. -/
def isr (adapter : Adapter) (answers : Nat → UInt32) : Adapter :=
  let machine := ({ adapter.machine with answers := answers }).i2cDemoIsr
  let signals :=
    if machine.dev.completion = adapter.machine.dev.completion then adapter.signals
    else adapter.signals ++ [⟨machine.dev.msgErr, machine.accesses⟩]
  { adapter with machine := machine, signals := signals }

def next (adapter : Adapter) : Event → Option Adapter
  | .xfer msgs =>
    match adapter.transfer with
    | none =>
      if readBeforeLast msgs then some adapter
      else some ⟨adapter.machine.i2cDemoXferBegin msgs, some (msgs, .begun), []⟩
    | some _ => none
  | .start =>
    match adapter.transfer with
    | some (msgs, .begun) =>
      some { adapter with machine := adapter.machine.i2cDemoStartTransfer, transfer := some (msgs, .started) }
    | _ => none
  | .finish timeLeft =>
    match adapter.transfer with
    | some (msgs, .started) =>
      some { adapter with machine := (adapter.machine.i2cDemoXferEnd msgs.length timeLeft).2, transfer := none }
    | _ => none
  | .interrupt answers => some (adapter.isr answers)
  | .reuse memory msgs =>
    match adapter.transfer with
    | none =>
      let dev := adapter.machine.dev
      let dev := { dev with currMsg := dev.currMsg.map fun _ => msgs }
      some { adapter with machine := { adapter.machine with dev := dev, memory := memory } }
    | some _ => none

/-! ## What a call returns -/

/-- The messages of the call that returns with this event, and what it returns. -/
def returns (adapter : Adapter) : Event → Option (List I2cMsg × Int)
  | .xfer msgs => if readBeforeLast msgs then some (msgs, -eopnotsupp) else none
  | .finish timeLeft =>
    match adapter.transfer with
    | some (msgs, .started) => some (msgs, (adapter.machine.i2cDemoXferEnd msgs.length timeLeft).1)
    | _ => none
  | _ => none

end Adapter

/-- The state that `i2c_demo_finish_transfer` establishes. -/
def Idle (machine : Machine) : Prop := machine.i2cDemoFinishTransfer = machine

/-- The bytes that went through the FIFO. -/
def fifoBytes (accesses : List Access) : Nat :=
  accesses.countP fun
    | .read reg _ | .write reg _ => reg == regFIFO

/-- All bytes of the messages. -/
def totalBytes : List I2cMsg → Nat
  | [] => 0
  | msg :: rest => msg.len.toNat + totalBytes rest

/-- The transfer was signalled complete, without an error and with all bytes moved. -/
def Succeeded (adapter : Adapter) (msgs : List I2cMsg) : Prop :=
  ∃ signal ∈ adapter.signals, signal.msgErr = 0 ∧ fifoBytes signal.accesses = totalBytes msgs

/-- The transfer was refused, it timed out, or an error was signalled. -/
def FailedOrTimedOut (adapter : Adapter) (msgs : List I2cMsg) (event : Event) : Prop :=
  readBeforeLast msgs = true ∨ event = .finish 0 ∨ ∃ signal ∈ adapter.signals, signal.msgErr ≠ 0

/-- The result of the call is about that call, and the device is idle again. -/
def ReturnsRightly (adapter : Adapter) (event : Event) : Prop :=
  ∀ msgs ret adapter', adapter.returns event = some (msgs, ret) → adapter.next event = some adapter' →
    (ret = msgs.length → Succeeded adapter msgs) ∧ (ret < 0 → FailedOrTimedOut adapter msgs event) ∧
      Idle adapter'.machine

/-- The call that returns was refused: one of its messages before the last is a read. -/
def RefusedIfReturns (adapter : Adapter) (event : Event) : Prop :=
  ∀ msgs ret, adapter.returns event = some (msgs, ret) → readBeforeLast msgs = true

/-! ## What an event does -/

namespace Adapter

variable {adapter adapter' : Adapter}

theorem next_xfer {msgs : List I2cMsg} (taken : adapter.next (.xfer msgs) = some adapter') :
    adapter.transfer = none ∧
      (readBeforeLast msgs = true ∧ adapter' = adapter ∨
        readBeforeLast msgs = false ∧
          adapter' = ⟨adapter.machine.i2cDemoXferBegin msgs, some (msgs, .begun), []⟩) := by
  simp only [next] at taken
  split at taken
  · rename_i free
    split at taken
    · rename_i refused
      exact ⟨free, .inl ⟨refused, (Option.some.inj taken).symm⟩⟩
    · rename_i accepted
      exact ⟨free, .inr ⟨by simpa using accepted, (Option.some.inj taken).symm⟩⟩
  · cases taken

theorem next_start (taken : adapter.next .start = some adapter') :
    ∃ msgs, adapter.transfer = some (msgs, .begun) ∧
      adapter' = { adapter with
        machine := adapter.machine.i2cDemoStartTransfer, transfer := some (msgs, .started) } := by
  simp only [next] at taken
  split at taken
  · rename_i msgs underWay
    exact ⟨msgs, underWay, (Option.some.inj taken).symm⟩
  · cases taken

theorem next_finish {timeLeft : UInt64} (taken : adapter.next (.finish timeLeft) = some adapter') :
    ∃ msgs, adapter.transfer = some (msgs, .started) ∧
      adapter' = { adapter with
        machine := (adapter.machine.i2cDemoXferEnd msgs.length timeLeft).2, transfer := none } := by
  simp only [next] at taken
  split at taken
  · rename_i msgs underWay
    exact ⟨msgs, underWay, (Option.some.inj taken).symm⟩
  · cases taken

theorem next_reuse {memory : Nat → UInt8} {msgs : List I2cMsg}
    (taken : adapter.next (.reuse memory msgs) = some adapter') :
    adapter.transfer = none ∧ adapter'.transfer = none ∧
      adapter'.machine.dev = { adapter.machine.dev with
        currMsg := adapter.machine.dev.currMsg.map fun _ => msgs } := by
  simp only [next] at taken
  split at taken
  · rename_i free
    obtain rfl := Option.some.inj taken
    exact ⟨free, free, rfl⟩
  · cases taken

end Adapter

/-! ## The device between and during the calls -/

/-- As long as only refused calls have returned: the device is idle while no call is under way,
and a call under way was accepted. -/
structure Untouched (adapter : Adapter) : Prop where
  idle : adapter.transfer = none → Idle adapter.machine
  current : ∀ msgs phase, adapter.transfer = some (msgs, phase) →
    readBeforeLast msgs = false ∧ adapter.machine.dev.currMsg ≠ none

theorem idle_iff (machine : Machine) :
    Idle machine ↔ machine.dev.currMsg = none ∧ machine.dev.numMsgs = 0 ∧ machine.dev.msgBuf = 0 ∧
      machine.dev.msgBufRemaining = 0 := by
  obtain ⟨⟨completion, currMsg, numMsgs, msgErr, msgBuf, remaining⟩, memory, beyond, answers, accesses⟩ := machine
  simp only [Idle, i2cDemoFinishTransfer, Machine.mk.injEq, I2cDemoDev.mk.injEq, true_and, and_true]
  constructor
  · rintro ⟨rfl, rfl, rfl, rfl⟩
    simp
  · rintro ⟨rfl, rfl, rfl, rfl⟩
    simp

theorem isr_currMsg (machine : Machine) : machine.i2cDemoIsr.dev.currMsg = machine.dev.currMsg := by
  cases isr_served machine with
  | silent zero dev memory writes => rw [dev]
  | failed err dev => rw [dev]
  | done nonzero quiet count bound unexpected err dev =>
    rw [dev]
    rfl

theorem isr_idle {machine : Machine} (idle : Idle machine) : Idle machine.i2cDemoIsr := by
  rw [idle_iff] at idle ⊢
  cases isr_served machine with
  | silent zero dev memory writes =>
    rw [dev]
    exact idle
  | failed err dev =>
    rw [dev]
    exact idle
  | done nonzero quiet count bound unexpected err dev =>
    -- without a current message nothing is drained
    rw [dev, unexpected idle.1, I2cDemoDev.moved_zero]
    exact idle

theorem startTransfer_currMsg (machine : Machine) :
    machine.i2cDemoStartTransfer.dev.currMsg = machine.dev.currMsg := by
  simp only [i2cDemoStartTransfer]
  split
  · rfl
  · rfl

theorem xferEnd_dev (machine : Machine) (num : Nat) (timeLeft : UInt64) :
    (machine.i2cDemoXferEnd num timeLeft).2.dev = machine.dev := by
  simp only [i2cDemoXferEnd]
  split
  · rfl
  split
  · rfl
  split
  · rfl
  · rfl

theorem Untouched.next {adapter adapter' : Adapter} {event : Event} (untouched : Untouched adapter)
    (refused : RefusedIfReturns adapter event) (taken : adapter.next event = some adapter') :
    Untouched adapter' := by
  cases event with
  | xfer msgs =>
    obtain ⟨_, ⟨_, rfl⟩ | ⟨accepted, rfl⟩⟩ := Adapter.next_xfer taken
    · exact untouched
    · refine ⟨by simp, ?_⟩
      intro msgs' phase underWay
      cases underWay
      exact ⟨accepted, by simp [i2cDemoXferBegin]⟩
  | start =>
    obtain ⟨msgs, underWay, rfl⟩ := Adapter.next_start taken
    refine ⟨by simp, ?_⟩
    intro msgs' phase same
    cases same
    rw [startTransfer_currMsg]
    exact untouched.current _ _ underWay
  | finish timeLeft =>
    -- a call that comes this far was accepted
    obtain ⟨msgs, underWay, _⟩ := Adapter.next_finish taken
    have returned := refused msgs _ (by simp only [Adapter.returns, underWay]; rfl)
    rw [(untouched.current _ _ underWay).1] at returned
    cases returned
  | interrupt answers =>
    obtain rfl := Option.some.inj taken
    constructor
    · intro free
      have idle := (idle_iff _).mp (untouched.idle free)
      exact isr_idle ((idle_iff _).mpr idle)
    · intro msgs phase underWay
      simp only [Adapter.isr, isr_currMsg]
      exact untouched.current msgs phase underWay
  | reuse memory msgs =>
    obtain ⟨free, stillFree, dev⟩ := Adapter.next_reuse taken
    constructor
    · intro _
      have idle := (idle_iff _).mp (untouched.idle free)
      rw [idle_iff, dev]
      exact ⟨by simp [idle.1], idle.2⟩
    · intro msgs' phase underWay
      rw [stillFree] at underWay
      cases underWay

/-- A call that was refused returns rightly, and a call that was accepted never does. -/
theorem Untouched.returnsRightly_iff {adapter adapter' : Adapter} {event : Event} (untouched : Untouched adapter)
    (taken : adapter.next event = some adapter') :
    ReturnsRightly adapter event ↔ RefusedIfReturns adapter event := by
  cases event with
  | xfer msgs =>
    obtain ⟨free, ⟨refused, rfl⟩ | ⟨accepted, _⟩⟩ := Adapter.next_xfer taken
    · have returned : adapter'.returns (.xfer msgs) = some (msgs, -eopnotsupp) := by
        simp [Adapter.returns, refused]
      simp only [ReturnsRightly, RefusedIfReturns, returned, taken, Option.some.injEq, Prod.mk.injEq]
      constructor
      · rintro _ _ _ ⟨rfl, _⟩
        exact refused
      · rintro _ _ _ _ ⟨rfl, rfl⟩ rfl
        refine ⟨?_, fun _ => .inl refused, untouched.idle free⟩
        intro impossible
        simp only [eopnotsupp] at impossible
        omega
    · simp [ReturnsRightly, RefusedIfReturns, Adapter.returns, accepted]
  | finish timeLeft =>
    obtain ⟨msgs, underWay, rfl⟩ := Adapter.next_finish taken
    obtain ⟨accepted, current⟩ := untouched.current _ _ underWay
    have returned : adapter.returns (.finish timeLeft) =
        some (msgs, (adapter.machine.i2cDemoXferEnd msgs.length timeLeft).1) := by
      simp only [Adapter.returns, underWay]
    constructor
    · -- it leaves its messages in `curr_msg`
      intro rightly
      have idle := (rightly msgs _ _ returned taken).2.2
      rw [idle_iff, xferEnd_dev] at idle
      exact absurd idle.1 current
    · intro refused
      rw [refused msgs _ returned] at accepted
      cases accepted
  | start => simp [ReturnsRightly, RefusedIfReturns, Adapter.returns]
  | interrupt answers => simp [ReturnsRightly, RefusedIfReturns, Adapter.returns]
  | reuse memory msgs => simp [ReturnsRightly, RefusedIfReturns, Adapter.returns]

theorem probed_untouched : Untouched .probed where
  idle _ := rfl
  current _ _ impossible := by cases impossible

/-- The results of the calls are about the calls, and the device is idle after each, exactly in
the runs in which every call that returns was refused. -/
theorem xfer_results_iff {past : List (Adapter × Event)} {last : Adapter}
    (execution : Execution Adapter.next .probed past last) :
    Throughout ReturnsRightly past ↔ Throughout RefusedIfReturns past := by
  exact execution.throughout_iff Untouched probed_untouched
    (fun _ _ _ untouched refused taken => untouched.next refused taken)
    (fun _ _ _ untouched taken => untouched.returnsRightly_iff taken)

/-- Two bytes to read, and then two to write. -/
def readThenWrite : List I2cMsg := [{ twoBytes with flags := mRD }, twoBytes]

/-- That call is refused, and a later interrupt finds nothing to do. -/
theorem xfer_results_iff_refused :
    Throughout ReturnsRightly [(.probed, .xfer readThenWrite), (.probed, .interrupt fun _ => 0)] := by
  have execution : Execution Adapter.next .probed
      [(.probed, .xfer readThenWrite), (.probed, .interrupt fun _ => 0)] _ :=
    (Execution.start.step rfl).step rfl
  refine (xfer_results_iff execution).mpr ?_
  intro taken member
  simp only [List.mem_cons, List.not_mem_nil, or_false] at member
  obtain rfl | rfl := member
  · intro msgs ret returned
    cases returned
    rfl
  · intro msgs ret returned
    cases returned

/-- A call with `twoBytes` alone that no interrupt comes into returns 1, the number of its
messages, although nothing was signalled. -/
theorem unsignalled_not_right :
    ¬ ∀ past last, Execution Adapter.next .probed past last → Throughout ReturnsRightly past := by
  intro claim
  have probed : Execution Adapter.next .probed [] .probed := .start
  have begun := probed.followedBy (.xfer [twoBytes]) rfl
  have finished := (begun.followedBy .start rfl).followedBy (.finish 1) rfl
  have rightly := claim _ _ finished
  simp only [throughout_append, throughout_singleton] at rightly
  obtain ⟨signal, signalled, _⟩ := (rightly.2 _ _ _ rfl rfl).1 rfl
  cases signalled

end KernelLearning.I2cBus
