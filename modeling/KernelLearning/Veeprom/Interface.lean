import KernelLearning.Bytes.Overlay
import KernelLearning.CSemantics.Text
import KernelLearning.Interaction.Program

/-!
# What the veeprom library is made of

The constants, the static variables and the system calls of `veeprom.c`, and the
static transfer buffer with the checked copies in and out of it.
-/

namespace KernelLearning.Veeprom

open KernelLearning.Bytes KernelLearning.CSemantics KernelLearning.Interaction

/-- `SECTOR_SIZE`. -/
def sectorSize : Int := 512

/-- `BUFFER_SIZE`. -/
def bufferSize : Nat := 2048

/-- `VEEPROM_START_SECTOR`. -/
def veepromStartSector : Int := 0

/-- `VEEPROM_END_SECTOR`. -/
def veepromEndSector : Int := 0

/-- `VEEPROM_UPDATE_FLAG_OFFSET` and `VEEPROM_UPDATE_FLAG_SIZE`. -/
def veepromUpdateFlagOffset : Nat := 8

def veepromUpdateFlagSize : Nat := 1

/-- `VEEPROM_RESET_REASON_OFFSET` and `VEEPROM_RESET_REASON_SIZE`. -/
def veepromResetReasonOffset : Nat := 9

def veepromResetReasonSize : Nat := 8

/-- The block that `veeprom_write` erases on NOR flash, `1024*64`. -/
def eraseLength : Nat := 65536

/-- `GPT_ENTRY_MAX`. -/
def gptEntryMax : Nat := 128

/-- `GPT_NAME_LEN_BYTES`. -/
def gptNameLenBytes : Nat := 72

/-- The `PIN_2ND_*` values that `get_boot_mode` can return. -/
inductive BootMode where
  | emmc
  | spinand
  | spinor
  deriving DecidableEq, Repr

/-- What stays fixed while the process runs: the size of a pointer, and the two
files under `/sys/class/socinfo` (`none` when a file cannot be opened). -/
structure Host where
  sizeofPointer : Nat
  boardId : Option (List Byte)
  bootMode : Option (List Byte)

def getBootMode (host : Host) : BootMode :=
  match host.boardId with
  | none => .emmc
  | some contents =>
    let cmdBuf := contents.take 4
    if cmdBuf.getD 0 0 = 51 ∧ cmdBuf.getD 1 0 = 48 ∧ cmdBuf.getD 2 0 = 48 then .emmc
    else
      let cmdBuf := (host.bootMode.getD []).take 1
      if cmdBuf.getD 0 0 = 49 then .spinand
      else if cmdBuf.getD 0 0 = 53 then .spinor
      else .emmc

/-- The values `device_path` takes: `""`, `/dev/ubi10_0`, `/dev/mtd%d` and
`/dev/mmcblk0p%d`. -/
inductive DevicePath where
  | empty
  | ubi
  | mtd (number : Int)
  | mmcblk0p (number : Nat)
  deriving DecidableEq, Repr

/-- One entry of `/sys/class/mtd` with the contents of its `name` file. -/
structure MtdEntry where
  name : List Byte
  nameFile : Option (List Byte)

/-- The part of `struct gpt_entry` that the library looks at. -/
structure GptEntry where
  partName : List UInt16

/-! ## System calls -/

/-- What a read of at most `count` bytes can return. -/
def Chunk (count : Nat) : Type := { bytes : List Byte // bytes.length ≤ count }

inductive Sys where
  | openDevice (path : DevicePath)
  | close (fd : Int)
  | sync
  | lseek (fd position : Int)
  | read (fd : Int) (count : Nat)
  | write (fd : Int) (data : List Byte)
  | memErase (fd : Int) (start length : Nat)
  | ubiVolumeUpdate (fd : Int) (bytes : Nat)
  /-- `access(VEEPROM_UBI(UBI_NUM), F_OK)`: is the volume node there? -/
  | accessUbi
  /-- Open `DEFAULT_UBI_CTRL`, request `UBI_IOCATT`, close; false without the control node. -/
  | attachUbi (mtdNum : Int)
  /-- The directory walk over `/sys/class/mtd`. -/
  | listMtd
  /-- The partition entries `fread` gets from `/dev/mmcblk0`; `none` when it cannot be opened. -/
  | readGpt
  | printf (text : List Byte)

/-- A read returns `none` where the call returns -1. -/
@[reducible] def Sys.Res : Sys → Type
  | .openDevice _ | .lseek _ _ | .write _ _ | .memErase _ _ _ | .ubiVolumeUpdate _ _ => Int
  | .close _ | .sync | .printf _ => Unit
  | .read _ count => Option (Chunk count)
  | .accessUbi | .attachUbi _ => Bool
  | .listMtd => Option (List MtdEntry)
  | .readGpt => Option (List GptEntry)

/-- The object a copy ran out of. -/
inductive Fault where
  | staticBuffer
  | callerBuffer
  | heapBlock
  deriving DecidableEq, Repr

abbrev Code (α : Type) : Type := Program Sys Sys.Res Fault α

namespace Call

/-! The system calls at the types they return. -/

def openDevice (path : DevicePath) : Code Int :=
  .call (.openDevice path) fun (fd : Int) => .done fd

def close (fd : Int) : Code Unit := .call (.close fd) fun (_ : Unit) => .done ()

def sync : Code Unit := .call .sync fun (_ : Unit) => .done ()

def lseek (fd position : Int) : Code Int :=
  .call (.lseek fd position) fun (answer : Int) => .done answer

def read (fd : Int) : Code (Option (Chunk bufferSize)) :=
  .call (.read fd bufferSize) fun (answer : Option (Chunk bufferSize)) => .done answer

def write (fd : Int) (data : List Byte) : Code Int :=
  .call (.write fd data) fun (answer : Int) => .done answer

def memErase (fd : Int) (start length : Nat) : Code Int :=
  .call (.memErase fd start length) fun (answer : Int) => .done answer

def ubiVolumeUpdate (fd : Int) (bytes : Nat) : Code Int :=
  .call (.ubiVolumeUpdate fd bytes) fun (answer : Int) => .done answer

def accessUbi : Code Bool := .call .accessUbi fun (answer : Bool) => .done answer

def attachUbi (mtdNum : Int) : Code Bool := .call (.attachUbi mtdNum) fun (answer : Bool) => .done answer

def listMtd : Code (Option (List MtdEntry)) :=
  .call .listMtd fun (answer : Option (List MtdEntry)) => .done answer

def readGpt : Code (Option (List GptEntry)) :=
  .call .readGpt fun (answer : Option (List GptEntry)) => .done answer

def printf (text : List Byte) : Code Unit := .call (.printf text) fun (_ : Unit) => .done ()

end Call

/-! ## The transfer buffer -/

/-- `char buffer[BUFFER_SIZE]`. -/
structure Buffer where
  bytes : List Byte
  length_eq : bytes.length = bufferSize

namespace Buffer

/-- `memset(buffer, 0, sizeof(buffer))`. -/
def zero : Buffer := ⟨List.replicate bufferSize 0, List.length_replicate⟩

/-- `read(fd, buffer, sizeof(buffer))` after the kernel delivered `chunk`. -/
def fill (buffer : Buffer) (chunk : Chunk bufferSize) : Buffer :=
  ⟨overlay buffer.bytes 0 chunk.val, by rw [length_overlay, buffer.length_eq]⟩

/-- The buffer after a `read` whose result is not looked at. -/
def afterRead (buffer : Buffer) : Option (Chunk bufferSize) → Buffer
  | none => buffer
  | some chunk => buffer.fill chunk

def InRange (start count : Int) : Prop := 0 ≤ start ∧ 0 ≤ count ∧ start + count ≤ bufferSize

instance (start count : Int) : Decidable (InRange start count) :=
  inferInstanceAs (Decidable (0 ≤ start ∧ 0 ≤ count ∧ start + count ≤ bufferSize))

theorem inRange_of_le {start count : Int} (low : 0 ≤ start) (nonneg : 0 ≤ count) (high : start + count ≤ 2048) :
    InRange start count := ⟨low, nonneg, high⟩

/-- The source of `memcpy(buf, buffer + start, count)`. -/
def copyOut (buffer : Buffer) (start count : Int) : Except Fault (List Byte) :=
  if InRange start count then .ok (window buffer.bytes start.toNat count.toNat)
  else .error .staticBuffer

/-- `memcpy(buffer + start, source, count)` and `memset(buffer + start, 0, count)`. -/
def copyIn (buffer : Buffer) (start count : Int) (source : Except Fault (List Byte)) :
    Except Fault Buffer :=
  if InRange start count then
    match source with
    | .error fault => .error fault
    | .ok data => .ok ⟨overlay buffer.bytes start.toNat data, by rw [length_overlay, buffer.length_eq]⟩
  else .error .staticBuffer

theorem copyOut_inRange (buffer : Buffer) {start count : Int} (inRange : InRange start count) :
    buffer.copyOut start count = .ok (window buffer.bytes start.toNat count.toNat) := if_pos inRange

theorem copyIn_inRange (buffer : Buffer) {start count : Int} (inRange : InRange start count)
    (data : List Byte) :
    ∃ buffer', buffer.copyIn start count (.ok data) = .ok buffer' ∧
      buffer'.bytes = overlay buffer.bytes start.toNat data :=
  ⟨_, if_pos inRange, rfl⟩

end Buffer

/-- The source of `memcpy(buffer + _, buf + pos, count)`. -/
def callerRead (buf : List Byte) (pos count : Int) : Except Fault (List Byte) :=
  if 0 ≤ pos ∧ 0 ≤ count ∧ pos + count ≤ buf.length then .ok (window buf pos.toNat count.toNat)
  else .error .callerBuffer

/-- The target of `memcpy(buf + pos, _, _)`. -/
def callerWrite (buf : List Byte) (pos : Int) (data : List Byte) : Except Fault (List Byte) :=
  if 0 ≤ pos ∧ pos + data.length ≤ buf.length then .ok (overlay buf pos.toNat data)
  else .error .callerBuffer

theorem callerWrite_inside {buf data : List Byte} (pos : Nat) (inside : pos + data.length ≤ buf.length) :
    callerWrite buf pos data = .ok (overlay buf pos data) := by
  unfold callerWrite
  rw [if_pos (by omega)]
  rfl

/-- The static variables of the library. -/
structure Statics where
  devicePath : DevicePath
  startSector : Int
  endSector : Int
  fd : Int
  buffer : Buffer
  bootmode : BootMode

def Statics.withBuffer (statics : Statics) (buffer : Buffer) : Statics :=
  { statics with buffer := buffer }

namespace Statics

variable (statics : Statics) (buffer buffer' : Buffer)

-- None of these is left to unfolding: the kernel would compare buffers byte by byte.

@[simp] theorem withBuffer_buffer : (statics.withBuffer buffer).buffer = buffer := by
  unfold withBuffer; rfl

@[simp] theorem withBuffer_fd : (statics.withBuffer buffer).fd = statics.fd := by
  unfold withBuffer; rfl

@[simp] theorem withBuffer_startSector :
    (statics.withBuffer buffer).startSector = statics.startSector := by
  unfold withBuffer; rfl

@[simp] theorem withBuffer_withBuffer :
    (statics.withBuffer buffer).withBuffer buffer' = statics.withBuffer buffer' := by
  unfold withBuffer; rfl

@[simp] theorem withBuffer_self : statics.withBuffer statics.buffer = statics := by
  unfold withBuffer; rfl

end Statics

/-- The variables as the program starts. -/
def Statics.initial : Statics where
  devicePath := .empty
  startSector := 0
  endSector := 0
  fd := -1
  buffer := .zero
  bootmode := .emmc

end KernelLearning.Veeprom
