import KernelLearning.Interaction.Failure
import KernelLearning.Veeprom.Interface

/-!
# The devices under the library

What the kernel does for one open device: a block device that transfers what
fits, NOR flash that can only clear bits between erases, and a UBI volume that is
replaced as a whole.  The file offset of the open descriptor belongs to the
process, everything else to the device.
-/

namespace KernelLearning.Veeprom

open KernelLearning.Bytes KernelLearning.CSemantics KernelLearning.Interaction
open KernelLearning.Interaction.Program KernelLearning.Interaction.Faulty

inductive Medium where
  | block
  | nor
  | ubi
  deriving DecidableEq, Repr

structure Device where
  medium : Medium
  /-- The node under which the device is opened. -/
  path : DevicePath
  bytes : List Byte
  /-- A UBI volume update was started and its data has not arrived. -/
  updating : Bool
  mtd : Option (List MtdEntry)
  gpt : Option (List GptEntry)

/-- What a stored byte becomes when a byte is written over it. -/
def Medium.combine : Medium → Byte → Byte → Byte
  | .nor, old, new => old &&& new
  | .block, _, new | .ubi, _, new => new

theorem Medium.combine_self (medium : Medium) (byte : Byte) : medium.combine byte byte = byte := by
  cases medium <;> simp [Medium.combine]

/-- The number that `open` hands out. -/
def descriptor : Int := 3

/-- A device, and the file offset of the descriptor when one is open. -/
abbrev World : Type := Device × Option Nat

def Device.transfer (device : Device) (offset count : Nat) : Chunk count :=
  ⟨window device.bytes offset count, length_window_le _ _ _⟩

/-- A write at a file offset, and how many bytes it moves. -/
def Device.store (device : Device) (offset : Nat) (data : List Byte) : Int × Device :=
  match device.medium with
  | .block | .nor =>
    ((min data.length (device.bytes.length - offset) : Nat),
      { device with bytes := combineAt device.medium.combine device.bytes offset data })
  | .ubi =>
    if device.updating then (data.length, { device with bytes := data, updating := false })
    else (-1, device)

/-- `MEMERASE` of a block that lies on the flash. -/
def Device.erase (device : Device) (start length : Nat) : Int × Device :=
  if device.medium = .nor ∧ start + length ≤ device.bytes.length then
    (0, { device with bytes := overlay device.bytes start (List.replicate length 0xff) })
  else (-1, device)

/-- `UBI_IOCVOLUP`: the old contents are gone from here on. -/
def Device.beginUpdate (device : Device) : Int × Device :=
  if device.medium = .ubi then (0, { device with bytes := [], updating := true }) else (-1, device)

/-- Calls on a descriptor that is not open return -1. -/
def answer : Handler Sys Sys.Res World
  | .openDevice path, (device, offset) =>
    if path = device.path then (descriptor, (device, some 0)) else ((-1 : Int), (device, offset))
  | .close fd, (device, offset) => ((), (device, if fd = descriptor then none else offset))
  | .sync, world => ((), world)
  | .lseek fd position, (device, offset) =>
    if fd = descriptor ∧ offset.isSome ∧ 0 ≤ position then
      (position, (device, some position.toNat))
    else ((-1 : Int), (device, offset))
  | .read fd count, (device, offset) =>
    match offset with
    | some position =>
      if fd = descriptor then
        (some (device.transfer position count),
          (device, some (position + (device.transfer position count).val.length)))
      else ((none : Option (Chunk count)), (device, offset))
    | none => ((none : Option (Chunk count)), (device, offset))
  | .write fd data, (device, offset) =>
    match offset with
    | some position =>
      if fd = descriptor then
        ((device.store position data).1,
          ((device.store position data).2, some (position + (device.store position data).1.toNat)))
      else ((-1 : Int), (device, offset))
    | none => ((-1 : Int), (device, offset))
  | .memErase fd start length, (device, offset) =>
    if fd = descriptor ∧ offset.isSome then
      ((device.erase start length).1, ((device.erase start length).2, offset))
    else ((-1 : Int), (device, offset))
  | .ubiVolumeUpdate fd _, (device, offset) =>
    if fd = descriptor ∧ offset.isSome then
      (device.beginUpdate.1, (device.beginUpdate.2, offset))
    else ((-1 : Int), (device, offset))
  | .accessUbi, (device, offset) => (decide (device.path = .ubi), (device, offset))
  | .attachUbi _, (device, offset) => (decide (device.path = .ubi), (device, offset))
  | .listMtd, (device, offset) => (device.mtd, (device, offset))
  | .readGpt, (device, offset) => (device.gpt, (device, offset))
  | .printf _, world => ((), world)

/-- The calls that can be refused, with what they return then. -/
def failure : (call : Sys) → Option (Sys.Res call)
  | .lseek _ _ | .write _ _ | .ubiVolumeUpdate _ _ => some (-1 : Int)
  | .read _ count => some (none : Option (Chunk count))
  | _ => none

/-- The device on which some calls fail. -/
def faultyAnswer : Handler Sys Sys.Res (Faulty World) := withFailures failure answer

/-! ## Writing in place -/

/-- The device after `data` was written over the bytes from `offset` on. -/
def Device.patch (device : Device) (offset : Nat) (data : List Byte) : Device :=
  { device with bytes := combineAt device.medium.combine device.bytes offset data }

/-- The device with other contents. -/
def Device.holding (device : Device) (bytes : List Byte) : Device := { device with bytes := bytes }

/-- The device with `data` in place of the bytes from `offset` on. -/
def Device.overlaid (device : Device) (offset : Nat) (data : List Byte) : Device :=
  { device with bytes := overlay device.bytes offset data }

namespace Device

variable (device : Device) (offset : Nat) (data : List Byte)

@[simp] theorem patch_medium : (device.patch offset data).medium = device.medium := rfl

@[simp] theorem length_patch : (device.patch offset data).bytes.length = device.bytes.length :=
  length_combineAt _ _ _ _

@[simp] theorem patch_nil : device.patch offset [] = device := by
  simp [patch]

theorem patch_append (more : List Byte) :
    (device.patch offset data).patch (offset + data.length) more = device.patch offset (data ++ more) := by
  simp only [patch, combineAt_append]

variable {device}

theorem store_inPlace (inPlace : device.medium ≠ .ubi) :
    device.store offset data =
      (((min data.length (device.bytes.length - offset) : Nat) : Int), device.patch offset data) := by
  unfold store
  split
  · rfl
  · rfl
  · contradiction

theorem patch_block (block : device.medium = .block) :
    device.patch offset data = device.overlaid offset data := by
  simp only [patch, overlaid, block]
  rfl

/-- Writing back a window that was read before, with one run changed, writes that run. -/
theorem patch_window (inner : Nat) (bound : inner + data.length ≤ 2048) :
    device.patch offset (overlay (load 2048 0 (window device.bytes offset 2048)) inner data) =
      device.patch (offset + inner) data := by
  simp only [patch]
  rw [combineAt_load_window device.medium.combine_self _ _ _ _ _ _ bound]

end Device

/-! ## The calls on an open descriptor -/

section
variable {device : Device} {position : Nat} {state : Faulty World}

theorem delivers_lseek (here : state.world = (device, some position)) {target : Int}
    (nonneg : 0 ≤ target) :
    Delivers faultyAnswer (Call.lseek descriptor target) state fun found after =>
      (found = target ∧ Passed 1 state after ∧ after.world = (device, some target.toNat)) ∨
        (found = -1 ∧ Refused 1 state after ∧ after.world = (device, some position)) := by
  unfold Call.lseek faultyAnswer
  rw [delivers_call, delivers_done]
  obtain ⟨after, ⟨answered, world, passed⟩ | ⟨answered, world, refused⟩⟩ :=
    withFailures_cases failure answer (.lseek descriptor target) rfl state
  · rw [answered, world, here]
    simp [answer, nonneg, passed]
  · rw [answered, world, here]
    simp [refused]

theorem delivers_read (here : state.world = (device, some position)) :
    Delivers faultyAnswer (Call.read descriptor) state fun found after =>
      (found = some (device.transfer position bufferSize) ∧ Passed 1 state after ∧
          ∃ position', after.world = (device, some position')) ∨
        (found = none ∧ Refused 1 state after ∧ after.world = (device, some position)) := by
  unfold Call.read faultyAnswer
  rw [delivers_call, delivers_done]
  obtain ⟨after, ⟨answered, world, passed⟩ | ⟨answered, world, refused⟩⟩ :=
    withFailures_cases failure answer (.read descriptor bufferSize) rfl state
  · rw [answered, world, here]
    simp [answer, passed]
  · rw [answered, world, here]
    simp [refused]

theorem delivers_write (here : state.world = (device, some position)) (data : List Byte) :
    Delivers faultyAnswer (Call.write descriptor data) state fun written after =>
      (written = (device.store position data).1 ∧ Passed 1 state after ∧
          ∃ position', after.world = ((device.store position data).2, some position')) ∨
        (written = -1 ∧ Refused 1 state after ∧ after.world = (device, some position)) := by
  unfold Call.write faultyAnswer
  rw [delivers_call, delivers_done]
  obtain ⟨after, ⟨answered, world, passed⟩ | ⟨answered, world, refused⟩⟩ :=
    withFailures_cases failure answer (.write descriptor data) rfl state
  · rw [answered, world, here]
    simp [answer, passed]
  · rw [answered, world, here]
    simp [refused]

theorem delivers_memErase (here : state.world = (device, some position)) (start length : Nat) :
    Delivers faultyAnswer (Call.memErase descriptor start length) state fun _ after =>
      Passed 0 state after ∧ after.world = ((device.erase start length).2, some position) := by
  unfold Call.memErase faultyAnswer
  rw [delivers_call, delivers_done, withFailures_infallible rfl, here]
  exact ⟨Passed.refl _ _, by simp [answer]⟩

end

end KernelLearning.Veeprom
