import KernelLearning.OtaTool.Emmc
import KernelLearning.Veeprom.GptNames

/-!
# One process of the tool after the other

Each process opens the eMMC partition anew and finds some memory on its stack.  To whoever runs
them, the two settings are two registers: a setting is what was set last.
-/

namespace KernelLearning.OtaTool

open KernelLearning.Bytes KernelLearning.CSemantics KernelLearning.Interaction KernelLearning.Veeprom
open KernelLearning.Interaction.Program

/-- One process: the platform that it was compiled for, the memory that it finds on its stack, and its
arguments. -/
structure Invocation where
  platform : Platform
  stack : Stack
  args : List (List Byte)

namespace Invocation

def opts (invocation : Invocation) : List Opt := getoptLong shortops longopts invocation.args

/-- The arguments are strings, and no value is longer than `para`. -/
structure Fits (invocation : Invocation) : Prop where
  clean : ∀ arg ∈ invocation.args, IsText arg
  short : ∀ value ∈ setValues invocation.opts, value.length < 32

/-- What the process leaves on a device. -/
def run (host : Host) (device : Device) (invocation : Invocation) : Device :=
  ((interpret (library host) (toolMain invocation.platform invocation.stack invocation.args) Statics.initial).run answer
    (device, none)).2.1

/-- The process has arguments, and reads the setting. -/
structure Reads (invocation : Invocation) (setting : Setting) : Prop where
  some : invocation.args ≠ []
  unset : setValues invocation.opts = []
  selected : selected invocation.opts = setting

end Invocation

def Setting.field (setting : Setting) (bytes : List Byte) : List Byte := window bytes setting.offset setting.size

/-! ## One process on a store -/

section
variable {invocation : Invocation} {setting : Setting} {value : List Byte}

end

/-! ## Processes on a device -/

section
variable {host : Host} {device : Device}

/-- The device has the room of the veeprom, and the library finds it. -/
structure Emmc (host : Host) (device : Device) : Prop where
  mode : getBootMode host = .emmc
  block : device.medium = .block
  large : veepromCapacity ≤ device.bytes.length
  finds : Finds host .empty device

theorem Emmc.overlaid (emmc : Emmc host device) (offset : Nat) (data : List Byte) :
    Emmc host (device.overlaid offset data) where
  mode := emmc.mode
  block := emmc.block
  large := by
    unfold Device.overlaid
    rw [length_overlay]
    exact emmc.large
  finds := emmc.finds

/-- The fields do not overlap. -/
theorem Setting.apart {setting other : Setting} (different : other ≠ setting) :
    other.offset + other.size ≤ setting.offset ∨ setting.offset + setting.size ≤ other.offset := by
  cases setting <;> cases other
  · exact absurd rfl different
  · decide
  · decide
  · exact absurd rfl different

end

/-! ## Reading a setting -/

section
variable {world : ToolWorld} {setting : Setting} {value : List Byte}

/-- How a value is printed: a flag as the `char` that its lowest byte makes. -/
def shown (platform : Platform) : Setting → List Byte → List Byte
  | .updateflag, value => decimal (platform.char (toChar (atoi value)))
  | .resetreason, value => value

end

section
variable {host : Host} {device : Device} {setting : Setting} {value : List Byte}

end

end KernelLearning.OtaTool
