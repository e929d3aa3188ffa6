import KernelLearning.Interaction.Refinement
import KernelLearning.OtaTool.Dispatch
import KernelLearning.Veeprom.Opening

/-!
# The tool on an eMMC partition

The calls of the tool are those of the library, and on an eMMC partition the library
stores what it is given.  So the tool does to the first sector what it does to a store.
-/

namespace KernelLearning.OtaTool

open KernelLearning.Bytes KernelLearning.CSemantics KernelLearning.Interaction KernelLearning.Veeprom
open KernelLearning.Interaction.Program

/-- The library behind `veeprom.h`; the error stream is not modelled. -/
def library (host : Host) : (call : ToolOp) → Statics → Code (ToolOp.Res call × Statics)
  | .veepromInit, statics => veepromInit host statics
  | .veepromExit, statics => do
    let statics ← veepromExit statics
    return ((), statics)
  | .veepromRead offset buf size, statics => do
    let (ret, buf, statics) ← veepromRead host statics offset buf size
    return ((ret, buf), statics)
  | .veepromWrite offset buf size, statics => veepromWrite host statics offset buf size
  | .printf text, statics => do
    let _ ← Call.printf text
    return ((), statics)
  | .perror _, statics => return ((), statics)

/-! ## A store on the device -/

/-- The device with the store in its first sector. -/
def Store.on (store : Store) (device : Device) : Device := device.overlaid 0 store.bytes

/-- The store and the state of the library over `original`. -/
structure Represents (host : Host) (original : Device) (world : ToolWorld) (statics : Statics)
    (state : World) : Prop where
  sector : OneSector statics
  finds : Finds host statics.devicePath original
  device_eq : state.1 = world.store.on original
  opened : world.opened = true → statics.devicePath = original.path ∧ statics.fd = descriptor ∧
    ∃ position, state.2 = some position
  closed : world.opened = false → statics.fd = -1 ∧ state.2 = none

section
variable {host : Host} {original : Device} {world : ToolWorld} {statics : Statics} {state : World}

theorem Setting.inside (setting : Setting) : setting.offset + setting.size ≤ veepromCapacity := by
  cases setting <;> decide

theorem Setting.size_pos (setting : Setting) : 0 < setting.size := by
  cases setting <;> decide

namespace Represents

theorem inSectors (represents : Represents host original world statics state) (setting : Setting) :
    InSectors statics setting.offset setting.size := by
  have inside := setting.inside
  unfold veepromCapacity at inside
  have start := represents.sector.start_eq
  have last := represents.sector.end_eq
  unfold veepromStartSector at start
  unfold veepromEndSector at last
  constructor <;> omega

/-- The store may have changed, and the library's buffer and file offset with it. -/
theorem moved (represents : Represents host original world statics state) (isOpen : world.opened = true)
    (buffer : Buffer) (position : Nat) (store : Store) :
    Represents host original { world with store := store } (statics.withBuffer buffer)
      (store.on original, some position) := by
  have sector := represents.sector
  have finds := represents.finds
  obtain ⟨path, opened, _⟩ := represents.opened isOpen
  unfold Statics.withBuffer
  exact ⟨⟨sector.start_eq, sector.end_eq, sector.bootmode⟩, finds, rfl, fun _ => ⟨path, opened, position, rfl⟩,
    fun closed => by cases isOpen.symm.trans closed⟩

theorem cleared (represents : Represents host original world statics state) (isClosed : world.opened = false) :
    Represents host original world (statics.withBuffer .zero) state := by
  have sector := represents.sector
  have finds := represents.finds
  obtain ⟨closed, nowhere⟩ := represents.closed isClosed
  unfold Statics.withBuffer
  exact ⟨⟨sector.start_eq, sector.end_eq, sector.bootmode⟩, finds, represents.device_eq,
    fun isOpen => (by cases isOpen.symm.trans isClosed), fun _ => ⟨closed, nowhere⟩⟩

end Represents

/-! ## The calls of the library -/

end

/-! ## The whole tool -/

end KernelLearning.OtaTool
