import KernelLearning.I2cBus.Calls

/-!
# What interrupts store

The bytes read from the FIFO go to the buffer of the message that was started, in order.  Nothing
forgets the buffer when a call returns, so an interrupt may store into it later, but never beyond
its end.
-/

namespace KernelLearning.I2cBus

open Interaction Machine

/-- A byte that was read from the FIFO. -/
def Access.received : Access → Option UInt8
  | .read reg val => if reg = regFIFO then some val.toUInt8 else none
  | .write _ _ => none

namespace Machine

/-- The bytes read from the FIFO since the completion was last initialised. -/
def received (machine : Machine) : List UInt8 := machine.accesses.filterMap Access.received

@[simp] theorem received_readS (machine : Machine) : (machine.readl regS).2.received = machine.received := by
  simp [received, readl, Access.received, regS, regFIFO]

@[simp] theorem received_readFIFO (machine : Machine) :
    (machine.readl regFIFO).2.received = machine.received ++ [(machine.answers 0).toUInt8] := by
  simp [received, readl, Access.received]

@[simp] theorem received_writel (machine : Machine) (reg val : UInt32) :
    (machine.writel reg val).received = machine.received := by
  simp [received, writel, Access.received]

/-! ## The bytes of one interrupt -/

/-- `count` bytes were received, and stored from `msg_buf` on. -/
structure Drained (machine machine' : Machine) (count : Nat) : Prop where
  buf : machine'.dev.msgBuf = machine.dev.msgBuf + count
  remaining : machine'.dev.msgBufRemaining + count = machine.dev.msgBufRemaining
  received : machine'.received = machine.received ++ bytesAt machine'.memory machine.dev.msgBuf count
  outside : ∀ address, address < machine.dev.msgBuf ∨ machine.dev.msgBuf + count ≤ address →
    machine'.memory address = machine.memory address

theorem drained_zero {machine machine' : Machine} (buf : machine'.dev.msgBuf = machine.dev.msgBuf)
    (remaining : machine'.dev.msgBufRemaining = machine.dev.msgBufRemaining)
    (received : machine'.received = machine.received) (memory : machine'.memory = machine.memory) :
    Drained machine machine' 0 := by
  constructor
  · exact buf
  · exact remaining
  · rw [received]
    exact (List.append_nil _).symm
  · intro address _
    rw [memory]

theorem bytesAt_congr {memory memory' : Nat → UInt8} {address count : Nat}
    (same : ∀ index < count, memory' (address + index) = memory (address + index)) :
    bytesAt memory' address count = bytesAt memory address count :=
  List.map_congr_left fun index member => same index (List.mem_range.mp member)

theorem Drained.trans {machine machine' machine'' : Machine} {count more : Nat}
    (first : Drained machine machine' count) (second : Drained machine' machine'' more) :
    Drained machine machine'' (count + more) := by
  constructor
  case buf => rw [second.buf, first.buf, Nat.add_assoc]
  case remaining =>
    rw [← first.remaining, ← second.remaining]
    omega
  case received =>
    -- the later bytes are behind the earlier ones
    have kept : bytesAt machine''.memory machine.dev.msgBuf count =
        bytesAt machine'.memory machine.dev.msgBuf count := by
      refine bytesAt_congr fun index below => second.outside _ (.inl ?_)
      rw [first.buf]
      exact Nat.add_lt_add_left below _
    rw [second.received, first.received, bytesAt_add, kept, first.buf, List.append_assoc]
  case outside =>
    intro address away
    rw [second.outside, first.outside]
    · omega
    · rw [first.buf]
      omega

/-- One turn of the drain. -/
theorem store_drained (machine : Machine) (some : machine.dev.msgBufRemaining ≠ 0) :
    Drained machine ((machine.readl regFIFO).2.store (machine.readl regFIFO).1).advance 1 := by
  constructor
  case buf => rfl
  case remaining => exact Nat.sub_add_cancel (Nat.one_le_iff_ne_zero.mpr some)
  case received =>
    have stored : bytesAt ((machine.readl regFIFO).2.store (machine.readl regFIFO).1).memory machine.dev.msgBuf 1 =
        [(machine.answers 0).toUInt8] := by
      simp [bytesAt, store, readl]
    exact (received_readFIFO machine).trans (congrArg (machine.received ++ ·) stored.symm)
  case outside =>
    intro address away
    have different : address ≠ machine.dev.msgBuf := by omega
    exact if_neg different

theorem drainTurns_drained (turns : Nat) (machine : Machine) (bound : turns ≤ machine.dev.msgBufRemaining) :
    ∃ count, Drained machine (drainTurns turns machine) count := by
  induction turns generalizing machine with
  | zero => exact ⟨0, drained_zero rfl rfl rfl rfl⟩
  | succ turns inductionHypothesis =>
    have looked : Drained machine (machine.readl regS).2 0 := drained_zero rfl rfl (received_readS machine) rfl
    simp only [drainTurns]
    split
    · exact ⟨0, looked⟩
    · have one := store_drained (machine.readl regS).2 (Nat.ne_of_gt (Nat.lt_of_lt_of_le (Nat.succ_pos _) bound))
      obtain ⟨count, rest⟩ := inductionHypothesis
        (((machine.readl regS).2.readl regFIFO).2.store ((machine.readl regS).2.readl regFIFO).1).advance
          (Nat.le_sub_one_of_lt bound)
      exact ⟨_, (looked.trans one).trans rest⟩

theorem drained_complete {machine machine' : Machine} {count : Nat} (drained : Drained machine machine' count) :
    Drained machine machine'.completeTransfer count := by
  have finished : Drained machine' machine'.completeTransfer 0 := by
    refine drained_zero rfl rfl ?_ rfl
    exact (received_writel _ _ _).trans (received_writel _ _ _)
  exact drained.trans finished

theorem isrDone_drained (machine : Machine) (val : UInt32) :
    ∃ count, Drained machine (machine.isrDone val) count ∧ (machine.message.isRead = false → count = 0) := by
  simp only [isrDone]
  split
  · exact ⟨0, drained_complete (drained_zero rfl rfl rfl rfl), fun _ => rfl⟩
  · split
    · rename_i isRead
      obtain ⟨count, drained⟩ := drainTurns_drained machine.dev.msgBufRemaining machine (Nat.le_refl _)
      have looked : Drained machine.i2cDemoDrainRxfifo (machine.i2cDemoDrainRxfifo.readl regS).2 0 :=
        drained_zero rfl rfl (received_readS _) rfl
      have marked : ∀ err, Drained (machine.i2cDemoDrainRxfifo.readl regS).2
          ((machine.i2cDemoDrainRxfifo.readl regS).2.setMsgErr err) 0 := fun err => drained_zero rfl rfl rfl rfl
      refine ⟨count, drained_complete ((drained.trans looked).trans (marked _)), fun written => ?_⟩
      rw [isRead] at written
      cases written
    · exact ⟨0, drained_complete (drained_zero rfl rfl rfl rfl), fun _ => rfl⟩

/-- An interrupt stores what it receives into what remains of the buffer, for a message that is read. -/
theorem isr_drained (machine : Machine) :
    ∃ count, Drained machine machine.i2cDemoIsr count ∧ (machine.message.isRead = false → count = 0) := by
  have looked : Drained machine (machine.readl regS).2 0 := drained_zero rfl rfl (received_readS machine) rfl
  simp only [i2cDemoIsr, product_ne_zero]
  split
  · exact ⟨0, drained_complete (drained_zero rfl rfl (received_readS machine) rfl), fun _ => rfl⟩
  · split
    · obtain ⟨count, drained, written⟩ := isrDone_drained (machine.readl regS).2 (machine.readl regS).1
      refine ⟨0 + count, looked.trans drained, fun here => ?_⟩
      rw [written here]
    · rename_i zero
      -- as in `isr_served`, no other branch is left
      have zero : (machine.readl regS).1 = 0 := Decidable.not_not.mp zero
      simp only [zero, UInt32.zero_and, ne_eq, not_true_eq_false, if_false]
      exact ⟨0, looked, fun _ => rfl⟩

theorem isr_numMsgs (machine : Machine) : machine.i2cDemoIsr.dev.numMsgs = machine.dev.numMsgs := by
  cases isr_served machine with
  | silent zero dev memory writes => rw [dev]
  | failed err dev => rw [dev]
  | done nonzero quiet count bound unexpected err dev =>
    rw [dev]
    rfl

end Machine

/-! ## One call -/

variable {adapter adapter' : Adapter}

/-- A call that has begun is about its messages. -/
def Begun (adapter : Adapter) : Prop :=
  ∀ msgs, adapter.transfer = some (msgs, .begun) →
    adapter.machine.dev.currMsg = some msgs ∧ adapter.machine.dev.numMsgs = msgs.length

theorem begun_next {event : Event} (begun : Begun adapter) (taken : adapter.next event = some adapter') :
    Begun adapter' := by
  intro msgs under
  cases event with
  | xfer msgs' =>
    obtain ⟨free, ⟨_, rfl⟩ | ⟨_, rfl⟩⟩ := Adapter.next_xfer taken
    · exact begun msgs under
    · cases under
      exact ⟨rfl, rfl⟩
  | start =>
    obtain ⟨msgs', _, rfl⟩ := Adapter.next_start taken
    cases under
  | finish timeLeft =>
    obtain ⟨msgs', _, rfl⟩ := Adapter.next_finish taken
    cases under
  | interrupt answers =>
    obtain rfl := Option.some.inj taken
    have before := begun msgs under
    exact ⟨(isr_currMsg _).trans before.1, (isr_numMsgs _).trans before.2⟩
  | reuse memory msgs' =>
    obtain ⟨_, stillFree, _⟩ := Adapter.next_reuse taken
    rw [stillFree] at under
    cases under

/-- The events that neither begin another call nor use the memory for something else. -/
def Event.goesOn : Event → Bool
  | .xfer msgs => readBeforeLast msgs
  | .start => false
  | .finish _ => true
  | .interrupt _ => true
  | .reuse _ _ => false

theorem xferEnd_memory (machine : Machine) (num : Nat) (timeLeft : UInt64) :
    (machine.i2cDemoXferEnd num timeLeft).2.memory = machine.memory := by
  simp only [i2cDemoXferEnd]
  split
  · rfl
  split
  · rfl
  split
  · rfl
  · rfl

theorem xferEnd_received (machine : Machine) (num : Nat) (timeLeft : UInt64) :
    (machine.i2cDemoXferEnd num timeLeft).2.received = machine.received := by
  simp only [i2cDemoXferEnd]
  split
  · exact received_writel _ _ _
  split
  · rfl
  split
  · rfl
  · rfl

theorem startTransfer_received (machine : Machine) :
    machine.i2cDemoStartTransfer.received = machine.received := by
  simp only [i2cDemoStartTransfer]
  split
  · rfl
  · simp only [received_writel]
    rfl

/-- Since the start of a message, `count` of its bytes were received. -/
structure Receiving (started adapter : Adapter) (msg : I2cMsg) (rest : List I2cMsg) (count : Nat) : Prop where
  bound : count ≤ msg.len.toNat
  current : adapter.machine.dev.currMsg = some (msg :: rest)
  begun : ∀ msgs, adapter.transfer ≠ some (msgs, .begun)
  drained : Drained started.machine adapter.machine count
  written : msg.isRead = false → count = 0

theorem Receiving.next {started : Adapter} {msg : I2cMsg} {rest : List I2cMsg} {count : Nat} {event : Event}
    (receiving : Receiving started adapter msg rest count)
    (length : started.machine.dev.msgBufRemaining = msg.len.toNat) (goesOn : event.goesOn = true)
    (taken : adapter.next event = some adapter') :
    ∃ count', Receiving started adapter' msg rest count' := by
  obtain ⟨bound, current, begun, drained, written⟩ := receiving
  cases event with
  | xfer msgs =>
    obtain ⟨free, ⟨_, rfl⟩ | ⟨accepted, rfl⟩⟩ := Adapter.next_xfer taken
    · exact ⟨count, bound, current, begun, drained, written⟩
    · simp only [Event.goesOn, accepted, Bool.false_eq_true] at goesOn
  | start => cases goesOn
  | finish timeLeft =>
    obtain ⟨msgs, _, rfl⟩ := Adapter.next_finish taken
    have done : Drained adapter.machine (adapter.machine.i2cDemoXferEnd msgs.length timeLeft).2 0 :=
      drained_zero (by rw [xferEnd_dev]) (by rw [xferEnd_dev]) (xferEnd_received _ _ _) (xferEnd_memory _ _ _)
    refine ⟨count, bound, ?_, by simp, drained.trans done, written⟩
    exact (congrArg I2cDemoDev.currMsg (xferEnd_dev _ _ _)).trans current
  | interrupt answers =>
    obtain rfl := Option.some.inj taken
    obtain ⟨more, now, silent⟩ := isr_drained { adapter.machine with answers := answers }
    have all : Drained started.machine (adapter.isr answers).machine (count + more) := by
      refine drained.trans ?_
      exact ⟨now.buf, now.remaining, now.received, now.outside⟩
    have message : ({ adapter.machine with answers := answers } : Machine).message = msg := by
      simp [Machine.message, current]
    refine ⟨count + more, ?_, (isr_currMsg _).trans current, begun, all, ?_⟩
    · have remaining := all.remaining
      omega
    · intro write
      rw [written write, silent (by rw [message]; exact write)]
  | reuse memory msgs => cases goesOn

/-- From the start of an accepted call on, with interrupts at any time, also after it has returned:
the bytes received are in the buffer of its first message, in order and within its length, nothing
else is changed, and a message that is written receives nothing. -/
theorem received_in_order {past later : List (Adapter × Event)} {adapter last : Adapter} {msg : I2cMsg}
    {rest : List I2cMsg} (execution : Execution Adapter.next .probed (past ++ (adapter, .start) :: later) last)
    (call : adapter.transfer = some (msg :: rest, .begun)) (goOn : ∀ taken ∈ later, taken.2.goesOn = true) :
    ∃ count ≤ msg.len.toNat,
      last.machine.received = adapter.machine.received ++ bytesAt last.machine.memory msg.buf count ∧
      (∀ address, address < msg.buf ∨ msg.buf + count ≤ address →
        last.machine.memory address = adapter.machine.memory address) ∧
      (msg.isRead = false → count = 0) := by
  obtain ⟨first, started, now, onwards⟩ := execution.split
  have begun : Begun adapter := first.always Begun (fun _ impossible => by cases impossible)
    fun _ _ _ begun taken => begun_next begun taken
  obtain ⟨current, left⟩ := begun _ call
  obtain ⟨msgs, _, rfl⟩ := Adapter.next_start now
  obtain ⟨dev, memory, _⟩ := startTransfer_programs adapter.machine current left
  have initially : Receiving { adapter with
      machine := adapter.machine.i2cDemoStartTransfer, transfer := some (msgs, .started) } { adapter with
      machine := adapter.machine.i2cDemoStartTransfer, transfer := some (msgs, .started) } msg rest 0 := by
    refine ⟨Nat.zero_le _, ?_, by simp, drained_zero rfl rfl rfl rfl, fun _ => rfl⟩
    exact (startTransfer_currMsg _).trans current
  obtain ⟨count, receiving⟩ := onwards.invariant
    (fun state => ∃ count, Receiving { adapter with
      machine := adapter.machine.i2cDemoStartTransfer, transfer := some (msgs, .started) } state msg rest count)
    (fun _ event => event.goesOn = true) ⟨0, initially⟩
    (by
      intro state event state' holds goesOn taken
      obtain ⟨count, receiving⟩ := holds
      exact receiving.next (congrArg I2cDemoDev.msgBufRemaining dev) goesOn taken)
    goOn
  have buf : adapter.machine.i2cDemoStartTransfer.dev.msgBuf = msg.buf := congrArg I2cDemoDev.msgBuf dev
  refine ⟨count, receiving.bound, ?_, ?_, receiving.written⟩
  · rw [receiving.drained.received, startTransfer_received, buf]
  · intro address away
    rw [receiving.drained.outside address (by rwa [buf])]
    exact congrFun memory address

/-- Two bytes to read. -/
def twoToRead : I2cMsg := { twoBytes with flags := mRD }

/-- Both bytes are there in one interrupt. -/
def bothBytes (index : Nat) : UInt32 := [sDONE, sRXD, 65, sRXD, 66].getD index 0

theorem received_in_order_both : ∃ past last, Execution Adapter.next .probed past last ∧
    bytesAt last.machine.memory 0x1000 2 = [65, 66] := by
  have probed : Execution Adapter.next .probed [] .probed := .start
  have begun := probed.followedBy (.xfer [twoToRead]) rfl
  have returned := ((begun.followedBy .start rfl).followedBy (.interrupt bothBytes) rfl).followedBy (.finish 1) rfl
  have goOn : ∀ event ∈ [Event.interrupt bothBytes, .finish 1], event.goesOn = true := by decide
  have execution : Execution Adapter.next .probed ([(.probed, .xfer [twoToRead])] ++
      (_, .start) :: [(_, .interrupt bothBytes), (_, .finish 1)]) _ := returned
  refine ⟨_, _, execution, ?_⟩
  obtain ⟨count, bound, received, _, _⟩ := received_in_order execution rfl
    (fun taken member => goOn taken.2 (List.mem_map_of_mem member))
  have both : [65, 66] = bytesAt _ 0x1000 count := received
  have two : count = 2 := by
    have length := congrArg List.length both
    simpa [bytesAt] using length.symm
  rw [two] at both
  exact both.symm

/-! ## All calls -/

/-- The first message of the call that this event starts. -/
def startedBy (taken : Adapter × Event) : Option I2cMsg :=
  match taken.2, taken.1.transfer with
  | .start, some (msg :: _, .begun) => some msg
  | _, _ => none

/-- The message that was started last. -/
def lastStarted (past : List (Adapter × Event)) : Option I2cMsg := (past.filterMap startedBy).getLast?

/-- What is left to receive is inside the buffer of the message. -/
def Within (dev : I2cDemoDev) : Option I2cMsg → Prop
  | none => dev.msgBufRemaining = 0
  | some msg => msg.buf ≤ dev.msgBuf ∧ dev.msgBuf + dev.msgBufRemaining = msg.buf + msg.len.toNat

theorem lastStarted_append (past : List (Adapter × Event)) (adapter : Adapter) (event : Event) :
    lastStarted (past ++ [(adapter, event)]) = (startedBy (adapter, event)).or (lastStarted past) := by
  cases here : startedBy (adapter, event) <;> simp [lastStarted, here]

theorem Within.moved {dev dev' : I2cDemoDev} {started : Option I2cMsg} (within : Within dev started) {count : Nat}
    (buf : dev'.msgBuf = dev.msgBuf + count) (remaining : dev'.msgBufRemaining + count = dev.msgBufRemaining) :
    Within dev' started := by
  cases started with
  | none =>
    simp only [Within] at within ⊢
    omega
  | some msg =>
    simp only [Within] at within ⊢
    omega

theorem Within.kept {dev dev' : I2cDemoDev} {started : Option I2cMsg} (within : Within dev started)
    (buf : dev'.msgBuf = dev.msgBuf) (remaining : dev'.msgBufRemaining = dev.msgBufRemaining) :
    Within dev' started := by
  have none_moved : dev'.msgBuf = dev.msgBuf + 0 := buf
  exact within.moved none_moved remaining

theorem within_started {past : List (Adapter × Event)} {last : Adapter}
    (execution : Execution Adapter.next .probed past last) :
    Begun last ∧ Within last.machine.dev (lastStarted past) := by
  induction execution with
  | start =>
    constructor
    · intro msgs impossible
      cases impossible
    · rfl
  | @step past adapter event adapter' earlier taken inductionHypothesis =>
    obtain ⟨begun, within⟩ := inductionHypothesis
    refine ⟨begun_next begun taken, ?_⟩
    rw [lastStarted_append]
    cases event with
    | xfer msgs =>
      obtain ⟨_, ⟨_, rfl⟩ | ⟨_, rfl⟩⟩ := Adapter.next_xfer taken
      · exact within
      · exact within.kept rfl rfl
    | start =>
      obtain ⟨msgs, call, rfl⟩ := Adapter.next_start taken
      obtain ⟨current, left⟩ := begun _ call
      cases msgs with
      | nil =>
        have nothing : startedBy (adapter, .start) = none := by simp [startedBy, call]
        have same : adapter.machine.i2cDemoStartTransfer = adapter.machine := by
          simp [i2cDemoStartTransfer, left]
        simp only [nothing, same, Option.none_or]
        exact within
      | cons msg rest =>
        have this_one : startedBy (adapter, .start) = some msg := by simp [startedBy, call]
        obtain ⟨dev, _, _⟩ := startTransfer_programs adapter.machine current left
        simp only [this_one, Option.some_or, dev]
        exact ⟨Nat.le_refl _, rfl⟩
    | finish timeLeft =>
      obtain ⟨msgs, _, rfl⟩ := Adapter.next_finish taken
      refine within.kept ?_ ?_
      · rw [xferEnd_dev]
      · rw [xferEnd_dev]
    | interrupt answers =>
      obtain rfl := Option.some.inj taken
      obtain ⟨count, drained, _⟩ := isr_drained { adapter.machine with answers := answers }
      exact within.moved drained.buf drained.remaining
    | reuse memory msgs =>
      obtain ⟨_, _, dev⟩ := Adapter.next_reuse taken
      refine within.kept ?_ ?_
      · rw [dev]
      · rw [dev]

/-- In every run, an interrupt stores only into the buffer of the message that was started last. -/
theorem stores_inside_started {past : List (Adapter × Event)} {adapter last : Adapter}
    (execution : Execution Adapter.next .probed past adapter) (answers : Nat → UInt32)
    (taken : adapter.next (.interrupt answers) = some last) (address : Nat)
    (changed : last.machine.memory address ≠ adapter.machine.memory address) :
    ∃ msg, lastStarted past = some msg ∧ msg.buf ≤ address ∧ address < msg.buf + msg.len.toNat := by
  obtain ⟨_, within⟩ := within_started execution
  obtain rfl := Option.some.inj taken
  obtain ⟨count, drained, _⟩ := isr_drained { adapter.machine with answers := answers }
  have inside : adapter.machine.dev.msgBuf ≤ address ∧ address < adapter.machine.dev.msgBuf + count := by
    refine Decidable.byContradiction fun away => changed (drained.outside address ?_)
    simp only
    omega
  have remaining := drained.remaining
  simp only at remaining
  cases eq : lastStarted past with
  | none =>
    rw [eq] at within
    simp only [Within] at within
    omega
  | some msg =>
    rw [eq] at within
    simp only [Within] at within
    refine ⟨msg, rfl, ?_, ?_⟩
    · omega
    · omega

/-- The call has timed out, and the byte still comes to where its buffer was. -/
theorem stores_inside_started_late : ∃ past last, Execution Adapter.next .probed past last ∧
    last.transfer = none ∧ ∃ msg, lastStarted past = some msg ∧ msg.buf ≤ 0x1000 := by
  have probed : Execution Adapter.next .probed [] .probed := .start
  have returned := ((probed.followedBy (.xfer [twoToRead]) rfl).followedBy .start rfl).followedBy (.finish 0) rfl
  refine ⟨_, _, returned, rfl, ?_⟩
  obtain ⟨msg, started, inside, _⟩ := stores_inside_started returned bothBytes rfl 0x1000 (by decide)
  exact ⟨msg, started, inside⟩

end KernelLearning.I2cBus
