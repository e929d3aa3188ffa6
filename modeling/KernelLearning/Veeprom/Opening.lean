import KernelLearning.Veeprom.Emmc
import KernelLearning.Veeprom.GptNames

/-!
# Opening and closing an eMMC partition

`veeprom_init` looks the partition up in the GPT when `device_path` cannot be opened.
With a closed descriptor every request is turned down by its first `lseek`.
-/

namespace KernelLearning.Veeprom

open KernelLearning.Bytes KernelLearning.CSemantics KernelLearning.Interaction
open KernelLearning.Interaction.Program

/-- `device_path` names the device, or the GPT leads there. -/
def Finds (host : Host) (devicePath : DevicePath) (device : Device) : Prop :=
  devicePath = device.path ∨ ∃ entries, device.gpt = some entries ∧ entries.length = gptEntryMax ∧
    gptDevicePath host.sizeofPointer 0 entries devicePath = device.path

/-- The variables of the library for the one sector that the tool uses. -/
structure OneSector (statics : Statics) : Prop where
  start_eq : statics.startSector = veepromStartSector
  end_eq : statics.endSector = veepromEndSector
  bootmode : statics.bootmode = .emmc

section
variable {host : Host} {statics : Statics} {device : Device} {position : Option Nat}

end

/-! ## Requests on a closed descriptor -/

section
variable {host : Host} {statics : Statics} {world : World} {offset size : Int}

end

end KernelLearning.Veeprom
