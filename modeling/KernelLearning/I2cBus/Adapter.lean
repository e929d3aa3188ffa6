/-!
# The i2c_bus driver: transfers and interrupts

`i2c_demo_fill_txfifo`, `i2c_demo_drain_rxfifo`, `i2c_demo_start_transfer`,
`i2c_demo_finish_transfer`, `i2c_demo_xfer` and `i2c_demo_isr`.  The hardware is
whatever it answers: `answers` are the values of the register reads to come, in
order, and nothing relates them to what was written.  Names that the source does
not declare are read as the ones they are next to: `I2C_DEMO_S_NODE` as
`I2C_DEMO_S_DONE`, `curr_msg0` as `curr_msg`, `iwc_demo_writel` as `i2c_demo_writel`.
-/

namespace KernelLearning.I2cBus

/-! ## Registers -/

def regC : UInt32 := 0x0
def regS : UInt32 := 0x4
def regDLEN : UInt32 := 0x8
def regA : UInt32 := 0xc
def regFIFO : UInt32 := 0x10

/-- `BIT`. -/
def bit (nr : UInt32) : UInt32 := 1 <<< nr

def cREAD : UInt32 := bit 0
/-- Bits 4 and 5 both clear. -/
def cCLEAR : UInt32 := bit 4
def cST : UInt32 := bit 7
def cINTD : UInt32 := bit 8
def cINIT : UInt32 := bit 9
def cINTR : UInt32 := bit 10
def cI2CEN : UInt32 := bit 15

def sDONE : UInt32 := bit 1
def sTXW : UInt32 := bit 2
def sRXR : UInt32 := bit 3
def sTXD : UInt32 := bit 4
def sRXD : UInt32 := bit 5
def sERR : UInt32 := bit 8
def sCLKT : UInt32 := bit 9
/-- Fake bit for SW error reporting. -/
def sLEN : UInt32 := bit 10

def eio : Int := 5
def eopnotsupp : Int := 95
def etimedout : Int := 110
def eremoteio : Int := 121

/-! ## Messages and the device -/

/-- The address of `buf` is a number, 0 that of `NULL`. -/
structure I2cMsg where
  addr : UInt16
  flags : UInt16
  len : UInt16
  buf : Nat
  deriving DecidableEq

/-- `I2C_M_RD`. -/
def mRD : UInt16 := 0x0001

def I2cMsg.isRead (msg : I2cMsg) : Bool := msg.flags &&& mRD != 0

/-- The value of the control register for a message. -/
def control (msg : I2cMsg) (lastMsg : Bool) : UInt32 :=
  let c := cST ||| cI2CEN
  let c := if msg.isRead then c ||| (cREAD ||| cINTR) else c ||| cINIT
  if lastMsg then c ||| cINTD else c

/-- The check of `i2c_demo_xfer`: a message before the last is a read. -/
def readBeforeLast (msgs : List I2cMsg) : Bool := msgs.dropLast.any I2cMsg.isRead

/-- The fields of `struct i2c_demo_dev` that a transfer uses.  `currMsg` is the array from the
message that `curr_msg` points to on, and `completion` counts the `complete` calls that nobody
has waited for. -/
structure I2cDemoDev where
  completion : Nat
  currMsg : Option (List I2cMsg)
  numMsgs : Nat
  msgErr : UInt32
  msgBuf : Nat
  msgBufRemaining : Nat
  deriving DecidableEq

/-- One access to a register: what was read from it or written to it. -/
inductive Access where
  | read (reg val : UInt32)
  | write (reg val : UInt32)
  deriving DecidableEq

/-- The device, the memory that holds the buffers, the message that lies past the end of the
array, the answers of the hardware to come, and the accesses since the completion was last
initialised. -/
structure Machine where
  dev : I2cDemoDev
  memory : Nat → UInt8
  beyond : I2cMsg
  answers : Nat → UInt32
  accesses : List Access

namespace Machine

/-- After the probe, whose `devm_kzalloc` zeroes the device. -/
def probed : Machine where
  dev := ⟨0, none, 0, 0, 0, 0⟩
  memory := fun _ => 0
  beyond := ⟨0, 0, 0, 0⟩
  answers := fun _ => 0
  accesses := []

/-- `i2c_demo_readl`. -/
def readl (machine : Machine) (reg : UInt32) : UInt32 × Machine :=
  (machine.answers 0,
    { machine with
      answers := fun index => machine.answers (index + 1)
      accesses := machine.accesses ++ [.read reg (machine.answers 0)] })

/-- `i2c_demo_writel`. -/
def writel (machine : Machine) (reg val : UInt32) : Machine :=
  { machine with accesses := machine.accesses ++ [.write reg val] }

/-- `*i2c_dev->curr_msg`. -/
def message (machine : Machine) : I2cMsg := (machine.dev.currMsg.getD []).headD machine.beyond

def setMsgErr (machine : Machine) (err : UInt32) : Machine :=
  { machine with dev := { machine.dev with msgErr := err } }

/-- `msg_buf++; msg_buf_remaining--`. -/
def advance (machine : Machine) : Machine :=
  { machine with
    dev := { machine.dev with
      msgBuf := machine.dev.msgBuf + 1, msgBufRemaining := machine.dev.msgBufRemaining - 1 } }

/-- `curr_msg++`. -/
def nextMsg (machine : Machine) : Machine :=
  { machine with dev := { machine.dev with currMsg := machine.dev.currMsg.map List.tail } }

/-- `*msg_buf = val`, into an array of bytes. -/
def store (machine : Machine) (val : UInt32) : Machine :=
  { machine with
    memory := fun address => if address = machine.dev.msgBuf then val.toUInt8 else machine.memory address }

/-! ## The FIFO -/

/-- `i2c_demo_fill_txfifo`; its loop makes at most `msg_buf_remaining` turns. -/
def fillTurns : Nat → Machine → Machine
  | 0, machine => machine
  | turns + 1, machine =>
    let (val, machine) := machine.readl regS
    if val &&& sTXD = 0 then machine
    else fillTurns turns (machine.writel regFIFO (machine.memory machine.dev.msgBuf).toUInt32).advance

def i2cDemoFillTxfifo (machine : Machine) : Machine := fillTurns machine.dev.msgBufRemaining machine

/-- `i2c_demo_drain_rxfifo`, likewise. -/
def drainTurns : Nat → Machine → Machine
  | 0, machine => machine
  | turns + 1, machine =>
    let (val, machine) := machine.readl regS
    if val &&& sRXD = 0 then machine
    else
      let (data, machine) := machine.readl regFIFO
      drainTurns turns (machine.store data).advance

def i2cDemoDrainRxfifo (machine : Machine) : Machine := drainTurns machine.dev.msgBufRemaining machine

/-! ## Transfers -/

def i2cDemoStartTransfer (machine : Machine) : Machine :=
  let msg := machine.message
  let lastMsg := machine.dev.numMsgs == 1
  if machine.dev.numMsgs = 0 then machine
  else
    let dev := { machine.dev with
      numMsgs := machine.dev.numMsgs - 1, msgBuf := msg.buf, msgBufRemaining := msg.len.toNat }
    ((({ machine with dev := dev }.writel regA msg.addr.toUInt32).writel regDLEN msg.len.toUInt32).writel
      regC (control msg lastMsg))

def i2cDemoFinishTransfer (machine : Machine) : Machine :=
  { machine with
    dev := { machine.dev with currMsg := none, numMsgs := 0, msgBuf := 0, msgBufRemaining := 0 } }

/-- `i2c_demo_xfer` after the check, up to and with `reinit_completion`. -/
def i2cDemoXferBegin (machine : Machine) (msgs : List I2cMsg) : Machine :=
  { machine with
    dev := { machine.dev with currMsg := some msgs, numMsgs := msgs.length, completion := 0 }
    accesses := [] }

/-- `i2c_demo_xfer` after `i2c_demo_start_transfer`: what it returns.  Nothing assigns
`time_left`. -/
def i2cDemoXferEnd (machine : Machine) (num : Nat) (timeLeft : UInt64) : Int × Machine :=
  if timeLeft = 0 then (-etimedout, machine.writel regC cCLEAR)
  else if machine.dev.msgErr = 0 then (num, machine)
  else if machine.dev.msgErr &&& sERR ≠ 0 then (-eremoteio, machine)
  else (-eio, machine)

/-! ## The interrupt handler -/

/-- From the label `complete` on. -/
def completeTransfer (machine : Machine) : Machine :=
  let machine := (machine.writel regC cCLEAR).writel regS (sCLKT ||| sERR ||| sDONE)
  { machine with dev := { machine.dev with completion := machine.dev.completion + 1 } }

/-- The branch for `DONE`. -/
def isrDone (machine : Machine) (val : UInt32) : Machine :=
  let (val, machine) :=
    match machine.dev.currMsg with
    | none => (val, machine)  -- got unexpected interrupt from firmware?
    | some _ =>
      if machine.message.isRead then machine.i2cDemoDrainRxfifo.readl regS else (val, machine)
  let err := if val &&& sRXD ≠ 0 ∨ machine.dev.msgBufRemaining ≠ 0 then sLEN else 0
  (machine.setMsgErr err).completeTransfer

/-- The branch for `TXW`. -/
def isrTxw (machine : Machine) (val : UInt32) : Machine :=
  if machine.dev.msgBufRemaining = 0 then (machine.setMsgErr (val ||| sLEN)).completeTransfer
  else
    let machine := machine.i2cDemoFillTxfifo
    if machine.dev.numMsgs ≠ 0 ∧ machine.dev.msgBufRemaining = 0 then machine.nextMsg.i2cDemoStartTransfer
    else machine

/-- The branch for `RXR`. -/
def isrRxr (machine : Machine) (val : UInt32) : Machine :=
  if machine.dev.msgBufRemaining = 0 then (machine.setMsgErr (val ||| sLEN)).completeTransfer
  else machine.i2cDemoDrainRxfifo

/-- `i2c_demo_isr`.  The test for `DONE` is a product, of an `unsigned long` of 64 bits. -/
def i2cDemoIsr (machine : Machine) : Machine :=
  let (val, machine) := machine.readl regS
  let err := val &&& (sCLKT ||| sERR)
  if err ≠ 0 then (machine.setMsgErr err).completeTransfer
  else if val.toUInt64 * sDONE.toUInt64 ≠ 0 then machine.isrDone val
  else if val &&& sTXW ≠ 0 then machine.isrTxw val
  else if val &&& sRXR ≠ 0 then machine.isrRxr val
  else machine

end Machine

end KernelLearning.I2cBus
