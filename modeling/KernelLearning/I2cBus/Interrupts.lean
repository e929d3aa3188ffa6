import KernelLearning.I2cBus.Adapter

/-!
# What an interrupt does

The product in the test for `DONE` is zero for the status word zero alone, so
the handler has three outcomes: nothing, an error, and the branch for `DONE`.
-/

namespace KernelLearning.I2cBus

/-- The device after `moved` bytes went through the FIFO. -/
def I2cDemoDev.moved (dev : I2cDemoDev) (count : Nat) : I2cDemoDev :=
  { dev with msgBuf := dev.msgBuf + count, msgBufRemaining := dev.msgBufRemaining - count }

@[simp] theorem I2cDemoDev.moved_zero (dev : I2cDemoDev) : dev.moved 0 = dev := rfl

theorem I2cDemoDev.moved_moved (dev : I2cDemoDev) (first second : Nat) :
    (dev.moved first).moved second = dev.moved (first + second) := by
  simp only [moved, Nat.add_assoc, Nat.sub_sub]

/-- What the registers are programmed with for one message. -/
def programmingOf (msg : I2cMsg) (lastMsg : Bool) : List (UInt32 × UInt32) :=
  [(regA, msg.addr.toUInt32), (regDLEN, msg.len.toUInt32), (regC, control msg lastMsg)]

/-- The `count` bytes from an address on. -/
def bytesAt (memory : Nat → UInt8) (address count : Nat) : List UInt8 :=
  (List.range count).map fun index => memory (address + index)

theorem bytesAt_add (memory : Nat → UInt8) (address first second : Nat) :
    bytesAt memory address (first + second) =
      bytesAt memory address first ++ bytesAt memory (address + first) second := by
  simp [bytesAt, List.range_add, Nat.add_assoc]

def Access.written : Access → Option (UInt32 × UInt32)
  | .read _ _ => none
  | .write reg val => some (reg, val)

namespace Machine

/-! ## What was written -/

/-- The register writes since the completion was last initialised. -/
def writes (machine : Machine) : List (UInt32 × UInt32) := machine.accesses.filterMap Access.written

@[simp] theorem writes_readl (machine : Machine) (reg : UInt32) :
    (machine.readl reg).2.writes = machine.writes := by
  simp [writes, readl, Access.written]

@[simp] theorem writes_writel (machine : Machine) (reg val : UInt32) :
    (machine.writel reg val).writes = machine.writes ++ [(reg, val)] := by
  simp [writes, writel, Access.written]

@[simp] theorem dev_readl (machine : Machine) (reg : UInt32) :
    (machine.readl reg).2.dev = machine.dev := rfl

@[simp] theorem dev_writel (machine : Machine) (reg val : UInt32) :
    (machine.writel reg val).dev = machine.dev := rfl

/-! ## Starting a message -/

/-- The current message is programmed, as the last one if no other follows. -/
theorem startTransfer_programs (machine : Machine) {msg : I2cMsg} {rest : List I2cMsg}
    (current : machine.dev.currMsg = some (msg :: rest)) (left : machine.dev.numMsgs = rest.length + 1) :
    machine.i2cDemoStartTransfer.dev = { machine.dev with
        numMsgs := rest.length, msgBuf := msg.buf, msgBufRemaining := msg.len.toNat } ∧
      machine.i2cDemoStartTransfer.memory = machine.memory ∧
      machine.i2cDemoStartTransfer.writes = machine.writes ++ programmingOf msg rest.isEmpty := by
  have message : machine.message = msg := by simp [Machine.message, current]
  have last : (rest.length + 1 == 1) = rest.isEmpty := by cases rest <;> simp
  simp only [i2cDemoStartTransfer, message, left, last, Nat.add_one_ne_zero, if_false, Nat.add_sub_cancel,
    dev_writel, writes_writel, List.append_assoc, true_and]
  exact ⟨rfl, rfl⟩

/-! ## The loop that empties the FIFO -/

/-- The drain takes some of the remaining bytes, and writes no register. -/
theorem drainTurns_moved (turns : Nat) (machine : Machine) :
    ∃ count ≤ turns, (drainTurns turns machine).dev = machine.dev.moved count ∧
      (drainTurns turns machine).writes = machine.writes := by
  induction turns generalizing machine with
  | zero => exact ⟨0, by simp, rfl, rfl⟩
  | succ turns inductionHypothesis =>
    simp only [drainTurns]
    split
    · exact ⟨0, by simp, rfl, writes_readl _ _⟩
    · obtain ⟨count, bound, dev, writes⟩ :=
        inductionHypothesis ((((machine.readl regS).2.readl regFIFO).2.store
          ((machine.readl regS).2.readl regFIFO).1).advance)
      refine ⟨1 + count, by omega, ?_, ?_⟩
      · rw [dev, ← I2cDemoDev.moved_moved]
        rfl
      · -- the store and the advance write no register
        exact writes.trans ((writes_readl _ _).trans (writes_readl _ _))

theorem drainRxfifo_moved (machine : Machine) :
    ∃ count ≤ machine.dev.msgBufRemaining,
      machine.i2cDemoDrainRxfifo.dev = machine.dev.moved count ∧
      machine.i2cDemoDrainRxfifo.writes = machine.writes := drainTurns_moved _ _

/-! ## The interrupt handler -/

/-- The product in the test for `DONE`. -/
theorem product_ne_zero (val : UInt32) : val.toUInt64 * sDONE.toUInt64 ≠ 0 ↔ val ≠ 0 := by
  have bound := val.toNat_lt
  simp only [ne_eq, ← UInt64.toNat_inj, ← UInt32.toNat_inj, UInt64.toNat_mul, UInt32.toNat_toUInt64,
    UInt64.toNat_zero, UInt32.toNat_zero, show sDONE.toNat = 2 by decide]
  omega

/-- What the handler did, by the first status word that it read. -/
inductive Served (machine machine' : Machine) : Prop where
  | silent (zero : machine.answers 0 = 0) (dev : machine'.dev = machine.dev)
      (memory : machine'.memory = machine.memory) (writes : machine'.writes = machine.writes)
  | failed (err : machine.answers 0 &&& (sCLKT ||| sERR) ≠ 0)
      (dev : machine'.dev = { machine.dev with
        msgErr := machine.answers 0 &&& (sCLKT ||| sERR), completion := machine.dev.completion + 1 })
  | done (nonzero : machine.answers 0 ≠ 0) (quiet : machine.answers 0 &&& (sCLKT ||| sERR) = 0)
      (count : Nat) (bound : count ≤ machine.dev.msgBufRemaining)
      (unexpected : machine.dev.currMsg = none → count = 0) (err : UInt32)
      (dev : machine'.dev = { machine.dev.moved count with
        msgErr := err, completion := machine.dev.completion + 1 })

theorem isrDone_moved (machine : Machine) (val : UInt32) :
    ∃ count ≤ machine.dev.msgBufRemaining, (machine.dev.currMsg = none → count = 0) ∧ ∃ err,
      (machine.isrDone val).dev = { machine.dev.moved count with
        msgErr := err, completion := machine.dev.completion + 1 } := by
  simp only [isrDone]
  split
  · exact ⟨0, by simp, fun _ => rfl, _, rfl⟩
  · rename_i cursor current
    split
    · obtain ⟨count, bound, dev, _⟩ := drainRxfifo_moved machine
      refine ⟨count, bound, by simp [current], ?_⟩
      simp only [completeTransfer, setMsgErr, dev_writel, dev_readl, dev]
      exact ⟨_, rfl⟩
    · exact ⟨0, by simp, fun _ => rfl, _, rfl⟩

theorem isr_served (machine : Machine) : Served machine machine.i2cDemoIsr := by
  simp only [i2cDemoIsr, product_ne_zero]
  split
  next err => exact .failed err rfl
  next quiet =>
    split
    next nonzero =>
      obtain ⟨count, bound, unexpected, err, dev⟩ :=
        isrDone_moved (machine.readl regS).2 (machine.readl regS).1
      exact .done nonzero (Decidable.not_not.mp quiet) count bound unexpected err dev
    next zero =>
      -- no bit is set in the word that is left, so the branches for `TXW` and `RXR` are never taken
      have zero : (machine.readl regS).1 = 0 := Decidable.not_not.mp zero
      simp only [zero, UInt32.zero_and, ne_eq, not_true_eq_false, if_false]
      exact .silent zero rfl rfl (writes_readl _ _)

end Machine

end KernelLearning.I2cBus
