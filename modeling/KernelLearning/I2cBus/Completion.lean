import KernelLearning.I2cBus.Interrupts
import KernelLearning.Interaction.Executions

/-!
# Interrupts of one transfer

The interrupts after `i2c_demo_xfer` started the first message.  The registers
are programmed and the FIFO is filled in order up to the first completion, but
every status word other than zero signals it.
-/

namespace KernelLearning.I2cBus

open Interaction Machine

/-! ## What a transfer writes -/

/-- What the registers are programmed with for all messages, in order. -/
def programming : List I2cMsg → List (UInt32 × UInt32)
  | [] => []
  | msg :: rest => programmingOf msg rest.isEmpty ++ programming rest

/-- The bytes that a message sends. -/
def sentBy (memory : Nat → UInt8) (msg : I2cMsg) : List UInt8 :=
  if msg.isRead then [] else bytesAt memory msg.buf msg.len.toNat

/-- The writes to the registers `A`, `DLEN` and `C`. -/
def programmed (writes : List (UInt32 × UInt32)) : List (UInt32 × UInt32) :=
  writes.filter fun write => write.1 == regA || write.1 == regDLEN || write.1 == regC

/-- The values written to the register `FIFO`. -/
def filled (writes : List (UInt32 × UInt32)) : List UInt32 :=
  (writes.filter fun write => write.1 == regFIFO).map Prod.snd

@[simp] theorem programmed_programmingOf (msg : I2cMsg) (lastMsg : Bool) :
    programmed (programmingOf msg lastMsg) = programmingOf msg lastMsg := rfl

@[simp] theorem filled_programmingOf (msg : I2cMsg) (lastMsg : Bool) : filled (programmingOf msg lastMsg) = [] := rfl

/-! ## The transfer -/

/-- `i2c_demo_xfer` up to and with `i2c_demo_start_transfer`, for messages that it accepts. -/
def xferStart (before : Machine) (msgs : List I2cMsg) : Option Machine :=
  if readBeforeLast msgs then none else some (before.i2cDemoXferBegin msgs).i2cDemoStartTransfer

/-- One interrupt, with what the hardware answers to the handler. -/
def interrupt (machine : Machine) (answers : Nat → UInt32) : Option Machine :=
  some ({ machine with answers := answers }).i2cDemoIsr

/-- The status word of the interrupt has neither `ERR` nor `CLKT`. -/
def Quiet (_ : Machine) (answers : Nat → UInt32) : Prop := answers 0 &&& (sCLKT ||| sERR) = 0

/-- `DONE`, or `TXW` or `RXR` with no bytes remaining. -/
def Ripe (machine : Machine) (val : UInt32) : Prop :=
  val &&& sDONE ≠ 0 ∨ (val &&& sTXW ≠ 0 ∨ val &&& sRXR ≠ 0) ∧ machine.dev.msgBufRemaining = 0

def SignalledRightly (machine : Machine) (answers : Nat → UInt32) : Prop :=
  ∀ machine', interrupt machine answers = some machine' →
    machine'.dev.completion ≠ machine.dev.completion → Ripe machine (answers 0)

/-! ## The order of a transfer -/

/-- `curr_msg` points to one of the messages; and until the completion is signalled the FIFO has
a prefix of the bytes to send, and the messages up to the current one are programmed, once each. -/
structure Orderly (memory : Nat → UInt8) (msgs : List I2cMsg) (machine : Machine) : Prop where
  within : ∃ msg rest, machine.dev.currMsg = some (msg :: rest) ∧ msg :: rest <:+ msgs
  fifo : machine.dev.completion = 0 →
    filled machine.writes <+: (msgs.flatMap (sentBy memory)).map UInt8.toUInt32
  registers : machine.dev.completion = 0 → ∃ msg rest, machine.dev.currMsg = some (msg :: rest) ∧
    programming msgs = programmed machine.writes ++ programming rest

/-- The first message is programmed, and nothing has gone out. -/
structure Started (msg : I2cMsg) (rest : List I2cMsg) (machine : Machine) : Prop where
  current : machine.dev.currMsg = some (msg :: rest)
  registers : programmed machine.writes = programmingOf msg rest.isEmpty
  fifo : filled machine.writes = []

/-- What the interrupts keep. -/
structure Underway (msgs : List I2cMsg) (machine : Machine) : Prop where
  within : ∃ msg rest, machine.dev.currMsg = some (msg :: rest) ∧ msg :: rest <:+ msgs
  started : machine.dev.completion = 0 → ∃ msg rest, msgs = msg :: rest ∧ Started msg rest machine

theorem Underway.orderly {msgs : List I2cMsg} {machine : Machine} (underway : Underway msgs machine)
    (memory : Nat → UInt8) : Orderly memory msgs machine where
  within := underway.within
  fifo notYet := by
    obtain ⟨msg, rest, rfl, started⟩ := underway.started notYet
    rw [started.fifo]
    exact List.nil_prefix
  registers notYet := by
    obtain ⟨msg, rest, rfl, started⟩ := underway.started notYet
    refine ⟨msg, rest, started.current, ?_⟩
    rw [started.registers]
    rfl

theorem xferStart_underway {before init : Machine} {msgs : List I2cMsg} (nonempty : msgs ≠ [])
    (starts : xferStart before msgs = some init) : Underway msgs init := by
  obtain ⟨msg, rest, rfl⟩ := List.exists_cons_of_ne_nil nonempty
  simp only [xferStart] at starts
  split at starts
  · cases starts
  · obtain rfl := Option.some.inj starts
    have first : (before.i2cDemoXferBegin (msg :: rest)).dev.currMsg = some (msg :: rest) := rfl
    obtain ⟨dev, _, writes⟩ := startTransfer_programs _ first rfl
    have current : (before.i2cDemoXferBegin (msg :: rest)).i2cDemoStartTransfer.dev.currMsg =
        some (msg :: rest) := by rw [dev]; exact first
    refine ⟨⟨msg, rest, current, List.suffix_rfl⟩, fun _ => ⟨msg, rest, rfl, current, ?_, ?_⟩⟩
    · rw [writes]
      rfl
    · rw [writes]
      rfl

theorem interrupt_underway {msgs : List I2cMsg} {machine machine' : Machine} {answers : Nat → UInt32}
    (underway : Underway msgs machine) (taken : interrupt machine answers = some machine') :
    Underway msgs machine' := by
  obtain rfl := Option.some.inj taken
  cases isr_served { machine with answers := answers } with
  | silent zero dev _ writes =>
    constructor
    · rw [dev]
      exact underway.within
    · intro notYet
      rw [dev] at notYet
      obtain ⟨msg, rest, messages, started⟩ := underway.started notYet
      refine ⟨msg, rest, messages, ?_, ?_, ?_⟩
      · rw [dev]
        exact started.current
      · rw [writes]
        exact started.registers
      · rw [writes]
        exact started.fifo
  | failed err dev =>
    -- the completion is signalled, and `curr_msg` stays
    constructor
    · rw [dev]
      exact underway.within
    · rw [dev]
      exact fun impossible => absurd impossible (Nat.succ_ne_zero _)
  | done nonzero quiet count bound unexpected err dev =>
    constructor
    · rw [dev]
      exact underway.within
    · rw [dev]
      exact fun impossible => absurd impossible (Nat.succ_ne_zero _)

/-- Without an error, the completion is signalled exactly on a status word other than zero. -/
theorem signalled_iff {machine : Machine} {answers : Nat → UInt32} (quiet : Quiet machine answers) :
    SignalledRightly machine answers ↔ (answers 0 ≠ 0 → Ripe machine (answers 0)) := by
  simp only [SignalledRightly, interrupt, Option.some.injEq, forall_eq']
  cases isr_served { machine with answers := answers } with
  | silent zero dev memory writes =>
    have zero : answers 0 = 0 := zero
    simp [dev, zero]
  | failed err dev => exact absurd quiet err
  | done nonzero _ count bound unexpected err dev =>
    have nonzero : answers 0 ≠ 0 := nonzero
    simp [dev, nonzero]

/-- A transfer is in order, and its completion signalled rightly, exactly if no status word but zero comes
before there is something to signal. -/
theorem isr_completion_iff {before init last : Machine} {msgs : List I2cMsg}
    {past : List (Machine × (Nat → UInt32))} (nonempty : msgs ≠ [])
    (starts : xferStart before msgs = some init) (execution : Execution interrupt init past last)
    (quiet : Throughout Quiet past) :
    (Throughout SignalledRightly past ∧
        ∀ machine ∈ reached past last, Orderly before.memory msgs machine) ↔
      Throughout (fun machine answers => answers 0 ≠ 0 → Ripe machine (answers 0)) past := by
  have orderly : ∀ machine ∈ reached past last, Orderly before.memory msgs machine := by
    intro machine member
    have underway := execution.invariant_reached (Underway msgs) Quiet
      (xferStart_underway nonempty starts) (fun _ _ _ underway _ taken => interrupt_underway underway taken)
      quiet machine member
    exact underway.orderly _
  have signalled : Throughout SignalledRightly past ↔
      Throughout (fun machine answers => answers 0 ≠ 0 → Ripe machine (answers 0)) past :=
    forall₂_congr fun taken member => signalled_iff (quiet taken member)
  rw [signalled, and_iff_left orderly]

/-- A message of two bytes to write. -/
def twoBytes : I2cMsg where
  addr := 0x50
  flags := 0
  len := 2
  buf := 0x1000

/-- The transfer of `twoBytes` alone, started on a device that made none before. -/
def twoBytesStarted : Machine := (Machine.probed.i2cDemoXferBegin [twoBytes]).i2cDemoStartTransfer

/-- With `DONE` in the only interrupt it goes well. -/
theorem isr_completion_iff_done :
    let past := [(twoBytesStarted, fun _ => sDONE)]
    Throughout SignalledRightly past ∧ ∀ machine ∈ reached past
      ({ twoBytesStarted with answers := fun _ => sDONE }).i2cDemoIsr, Orderly (fun _ => 0) [twoBytes] machine := by
  intro past
  have execution : Execution interrupt twoBytesStarted past _ := Execution.start.step rfl
  have quiet : Throughout Quiet past := by
    simp only [past, throughout_singleton, Quiet]
    decide
  have starts : xferStart Machine.probed [twoBytes] = some twoBytesStarted := rfl
  refine (isr_completion_iff (by simp) starts execution quiet).mpr ?_
  simp only [past, throughout_singleton, Ripe]
  decide

/-- The room for data that the first interrupt of a write reports, with two bytes remaining, is
taken for the end of the transfer. -/
theorem txw_signals_completion :
    ¬ ∀ past last, Execution interrupt twoBytesStarted past last → Throughout Quiet past →
      Throughout SignalledRightly past ∧
        ∀ machine ∈ reached past last, Orderly (fun _ => 0) [twoBytes] machine := by
  intro claim
  have execution : Execution interrupt twoBytesStarted [(twoBytesStarted, fun _ => sTXW)] _ :=
    Execution.start.step rfl
  obtain ⟨rightly, _⟩ := claim _ _ execution (by
    simp only [throughout_singleton, Quiet]
    decide)
  rw [throughout_singleton] at rightly
  have ripe := rightly _ rfl (by decide)
  revert ripe
  simp only [Ripe]
  decide

end KernelLearning.I2cBus
