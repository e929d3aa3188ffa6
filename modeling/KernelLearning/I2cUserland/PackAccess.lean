import KernelLearning.Bytes.Overlay
import Mathlib.Logic.Function.Basic

/-!
# Access to an I2C slave from userland

`i2cbus_packwrite` and `i2cbus_packread` over a bus of slaves with registers of
one byte.  Both give up the lowest bit of the address, and the messages of the
read are both writes, so that nothing is ever stored for the caller.
-/

namespace KernelLearning.I2cUserland

open Bytes

/-! ## The slaves -/

/-- A slave: its registers, and its register pointer. -/
structure Slave where
  registers : UInt8 → UInt8
  pointer : UInt8

/-- A value goes to the register at the pointer, which moves on. -/
def Slave.store (slave : Slave) (value : UInt8) : Slave where
  registers := Function.update slave.registers slave.pointer value
  pointer := slave.pointer + 1

/-- A write message: the register pointer, and the values that are stored from there on. -/
def Slave.write (slave : Slave) : List UInt8 → Slave
  | [] => slave
  | offset :: values => values.foldl Slave.store { slave with pointer := offset }

/-- A read message: the bytes from the register pointer on. -/
def Slave.read (slave : Slave) (len : Nat) : List UInt8 × Slave :=
  ((List.range len).map fun i => slave.registers (slave.pointer + UInt8.ofNat i),
    { slave with pointer := slave.pointer + UInt8.ofNat len })

/-- The slaves by their addresses, and the addresses of those that were accessed so far. -/
structure Bus where
  slaves : UInt16 → Option Slave
  accessed : List UInt16

/-- The register `offset` of the slave at `addr`. -/
def Bus.register (bus : Bus) (addr : UInt16) (offset : UInt8) : Option UInt8 :=
  (bus.slaves addr).map (·.registers offset)

/-! ## `I2C_RDWR` -/

/-- The arrays of a call: its own `tmpaddr`, and the `buf` of its caller. -/
inductive Place where
  | tmpaddr
  | buf
  deriving DecidableEq

abbrev Memory : Type := Place → List UInt8

structure I2cMsg where
  addr : UInt16
  flags : UInt16
  len : UInt16
  buf : Place

def I2C_M_WR : UInt16 := 0
/-- Of `linux/i2c.h`. -/
def I2C_M_RD : UInt16 := 1

/-- One message; `none` if no slave acknowledges the address. -/
def transfer (state : Bus × Memory) (msg : I2cMsg) : Option (Bus × Memory) :=
  let (bus, memory) := state
  (bus.slaves msg.addr).map fun slave =>
    let accessed := bus.accessed ++ [msg.addr]
    if msg.flags &&& I2C_M_RD ≠ 0 then
      let (bytes, slave) := slave.read msg.len.toNat
      (⟨Function.update bus.slaves msg.addr (some slave), accessed⟩,
        Function.update memory msg.buf (overlay (memory msg.buf) 0 bytes))
    else
      let slave := slave.write ((memory msg.buf).take msg.len.toNat)
      (⟨Function.update bus.slaves msg.addr (some slave), accessed⟩, memory)

/-- `ioctl(fd, I2C_RDWR, &msgset)` stops at the first message that fails. -/
def ioctlRdwr (state : Bus × Memory) (nmsgs : Int) : List I2cMsg → (Bus × Memory) × Int
  | [] => (state, nmsgs)
  | msg :: msgs =>
    match transfer state msg with
    | none => (state, -1)
    | some state => ioctlRdwr state nmsgs msgs

/-! ## The functions -/

/-- `i2cbus_packread`, with what it leaves in `buf` and returns. -/
def i2cbusPackread (bus : Bus) (addr offset : UInt8) (buf : List UInt8) (_len : UInt8) :
    Bus × List UInt8 × Int :=
  let memory : Memory
    | .tmpaddr => [offset, offset]
    | .buf => buf
  let msgs : List I2cMsg :=
    [{ addr := (addr &&& 0xfe).toUInt16, flags := I2C_M_WR, len := 1, buf := .tmpaddr },
      { addr := (addr &&& 0xfe).toUInt16, flags := I2C_M_WR, len := 1, buf := .tmpaddr }]
  let ((bus, memory), ret) := ioctlRdwr (bus, memory) 2 msgs
  (bus, memory .buf, ret)

/-- `i2cbus_packwrite`, of the first byte of `buf`. -/
def i2cbusPackwrite (bus : Bus) (addr offset : UInt8) (buf : List UInt8) (_len : UInt8) : Bus × Int :=
  let memory : Memory
    | .tmpaddr => [offset, buf.headD 0]
    | .buf => buf
  let msgs : List I2cMsg :=
    [{ addr := (addr &&& 0xfe).toUInt16, flags := I2C_M_WR, len := 2, buf := .tmpaddr }]
  let ((bus, _), ret) := ioctlRdwr (bus, memory) 1 msgs
  (bus, ret)

/-! ## What the functions do -/

theorem packwrite_absent {bus : Bus} {addr offset : UInt8} {buf : List UInt8} {len : UInt8}
    (absent : bus.slaves (addr &&& 0xfe).toUInt16 = none) : i2cbusPackwrite bus addr offset buf len = (bus, -1) := by
  simp [-UInt8.toUInt16_and, i2cbusPackwrite, ioctlRdwr, transfer, absent]

theorem packwrite_present {bus : Bus} {addr offset v : UInt8} {len : UInt8} {slave : Slave}
    (present : bus.slaves (addr &&& 0xfe).toUInt16 = some slave) :
    i2cbusPackwrite bus addr offset [v] len =
      (⟨Function.update bus.slaves (addr &&& 0xfe).toUInt16
          (some ⟨Function.update slave.registers offset v, offset + 1⟩),
        bus.accessed ++ [(addr &&& 0xfe).toUInt16]⟩, 1) := by
  simp [-UInt8.toUInt16_and, i2cbusPackwrite, ioctlRdwr, transfer, present, I2C_M_WR, Slave.write, Slave.store]

theorem packread_absent {bus : Bus} {addr offset : UInt8} {buf : List UInt8} {len : UInt8}
    (absent : bus.slaves (addr &&& 0xfe).toUInt16 = none) :
    i2cbusPackread bus addr offset buf len = (bus, buf, -1) := by
  simp [-UInt8.toUInt16_and, i2cbusPackread, ioctlRdwr, transfer, absent]

/-- A read sets the register pointer twice and leaves `buf` alone. -/
theorem packread_present {bus : Bus} {addr offset : UInt8} {buf : List UInt8} {len : UInt8} {slave : Slave}
    (present : bus.slaves (addr &&& 0xfe).toUInt16 = some slave) :
    i2cbusPackread bus addr offset buf len =
      (⟨Function.update bus.slaves (addr &&& 0xfe).toUInt16 (some { slave with pointer := offset }),
        bus.accessed ++ [(addr &&& 0xfe).toUInt16, (addr &&& 0xfe).toUInt16]⟩, buf, 2) := by
  simp [-UInt8.toUInt16_and, i2cbusPackread, ioctlRdwr, transfer, present, I2C_M_WR, Slave.write]

/-- The bit that is masked is that of the odd addresses. -/
theorem masked_eq_iff (addr : UInt8) : (addr &&& 0xfe).toUInt16 = addr.toUInt16 ↔ addr % 2 = 0 := by
  have bits : ∀ bits : BitVec 8, bits &&& 0xfe#8 = bits ↔ bits % 2#8 = 0#8 := by decide
  rw [UInt8.toUInt16_inj, ← UInt8.toBitVec_inj, ← UInt8.toBitVec_inj]
  exact bits addr.toBitVec

/-! ## A write and a read -/

/-- `i2cbus_packwrite` of `v` and then `i2cbus_packread` into `buf`. -/
def writeThenRead (slaves : UInt16 → Option Slave) (addr offset v : UInt8) (buf : List UInt8) :
    Bus × List UInt8 :=
  let (bus, _) := i2cbusPackwrite ⟨slaves, []⟩ addr offset [v] 1
  let (bus, buf, _) := i2cbusPackread bus addr offset buf 1
  (bus, buf)

/-- The caller gets the byte back, no other register is touched, and no other slave is accessed. -/
structure RoundTrip (slaves : UInt16 → Option Slave) (addr offset v : UInt8) (buf : List UInt8) : Prop where
  byte : (writeThenRead slaves addr offset v buf).2[0]? = some v
  registers : ∀ other otherOffset, (other, otherOffset) ≠ (addr.toUInt16, offset) →
    (writeThenRead slaves addr offset v buf).1.register other otherOffset =
      Bus.register ⟨slaves, []⟩ other otherOffset
  accessed : ∀ other ∈ (writeThenRead slaves addr offset v buf).1.accessed, other = addr.toUInt16

theorem writeThenRead_buf (slaves : UInt16 → Option Slave) (addr offset v : UInt8) (buf : List UInt8) :
    (writeThenRead slaves addr offset v buf).2 = buf := by
  cases present : slaves (addr &&& 0xfe).toUInt16 with
  | none => simp [-UInt8.toUInt16_and, writeThenRead, packwrite_absent, packread_absent, present]
  | some slave =>
    simp only [writeThenRead]
    rw [packwrite_present present, packread_present (Function.update_self _ _ _)]

/-- The round trip holds exactly if the byte was in `buf` before, and the address is even or the
slave at the even address below it is not there. -/
theorem roundTrip_iff (slaves : UInt16 → Option Slave) (addr offset v : UInt8) (buf : List UInt8) :
    RoundTrip slaves addr offset v buf ↔
      buf[0]? = some v ∧ (addr % 2 = 0 ∨ slaves (addr &&& 0xfe).toUInt16 = none) := by
  rw [← masked_eq_iff]
  -- both calls go to the masked address, so all depends on the slave there
  cases present : slaves (addr &&& 0xfe).toUInt16 with
  | none =>
    have nothing : writeThenRead slaves addr offset v buf = (⟨slaves, []⟩, buf) := by
      simp [-UInt8.toUInt16_and, writeThenRead, packwrite_absent, packread_absent, present]
    constructor
    · intro roundTrip
      refine ⟨?_, .inr rfl⟩
      rw [← writeThenRead_buf slaves addr offset v buf]
      exact roundTrip.byte
    · rintro ⟨byte, _⟩
      refine ⟨by rw [nothing]; exact byte, fun _ _ _ => by rw [nothing], ?_⟩
      rw [nothing]
      exact fun _ member => absurd member List.not_mem_nil
  | some slave =>
    have done : writeThenRead slaves addr offset v buf =
        (⟨Function.update slaves (addr &&& 0xfe).toUInt16
            (some ⟨Function.update slave.registers offset v, offset⟩),
          List.replicate 3 (addr &&& 0xfe).toUInt16⟩, buf) := by
      simp only [writeThenRead]
      rw [packwrite_present present, packread_present (Function.update_self _ _ _)]
      simp only [Function.update_idem]
      rfl
    constructor
    · intro roundTrip
      have accessed := roundTrip.accessed (addr &&& 0xfe).toUInt16
      rw [done] at accessed
      refine ⟨?_, .inl (accessed List.mem_cons_self)⟩
      rw [← writeThenRead_buf slaves addr offset v buf]
      exact roundTrip.byte
    · rintro ⟨byte, even | absent⟩
      · refine ⟨by rw [done]; exact byte, ?_, ?_⟩
        · intro other otherOffset different
          rw [done, even, Bus.register, Bus.register]
          by_cases same : other = addr.toUInt16
          · have elsewhere : otherOffset ≠ offset := fun here => different (by rw [same, here])
            rw [even] at present
            simp only [same, Function.update_self, present, Option.map_some, Function.update_of_ne elsewhere]
          · simp only [Function.update_of_ne same]
        · intro other member
          rw [done] at member
          rw [List.eq_of_mem_replicate member, even]
      · cases absent

/-! ## One slave -/

/-- A slave with registers of zeros at address 0x50. -/
def oneSlave : UInt16 → Option Slave := fun addr => if addr = 0x50 then some ⟨fun _ => 0, 0⟩ else none

/-- The address of `main`, with `buf` as its caller left it. -/
theorem not_roundTrip : ¬ RoundTrip oneSlave 0x50 0 0x89 [0] := by
  intro roundTrip
  have byte := roundTrip.byte
  rw [writeThenRead_buf] at byte
  exact absurd byte (by decide)

end KernelLearning.I2cUserland
