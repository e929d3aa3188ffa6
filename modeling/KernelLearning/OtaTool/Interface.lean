import KernelLearning.Interaction.Failure
import KernelLearning.Veeprom.Interface

/-!
# What `ota_tool` calls

The tool sees the library through `veeprom.h`.  Its calls are answered by a veeprom
that stores what it is given: an array of one sector, which is what the library makes
of an eMMC partition.
-/

namespace KernelLearning.OtaTool

open KernelLearning.Bytes KernelLearning.CSemantics KernelLearning.Interaction KernelLearning.Veeprom

inductive ToolOp where
  | veepromInit
  | veepromExit
  /-- `buf` is the caller's object, which the call may overwrite. -/
  | veepromRead (offset : Int) (buf : List Byte) (size : Int)
  | veepromWrite (offset : Int) (buf : List Byte) (size : Int)
  | printf (text : List Byte)
  /-- The message that `perror` puts before the error text. -/
  | perror (text : List Byte)

@[reducible] def ToolOp.Res : ToolOp → Type
  | .veepromInit | .veepromWrite _ _ _ => Int
  | .veepromRead _ _ _ => Int × List Byte
  | .veepromExit | .printf _ | .perror _ => Unit

/-- What is undefined in the code of the tool. -/
inductive ToolFault where
  /-- `strcpy` writes past the end of `para`. -/
  | para
  /-- `strcpy` writes past the end of `buffer` in `resetreason_para_check`. -/
  | checkBuffer
  /-- A string is read past the end of its object. -/
  | unterminated
  deriving DecidableEq, Repr

abbrev Tool (α : Type) : Type := Program ToolOp ToolOp.Res ToolFault α

namespace Tool

@[simp] def veepromInit : Tool Int := .call .veepromInit fun (ret : Int) => .done ret

@[simp] def veepromExit : Tool Unit := .call .veepromExit fun (_ : Unit) => .done ()

@[simp] def veepromRead (offset : Int) (buf : List Byte) (size : Int) : Tool (Int × List Byte) :=
  .call (.veepromRead offset buf size) fun (answer : Int × List Byte) => .done answer

@[simp] def veepromWrite (offset : Int) (buf : List Byte) (size : Int) : Tool Int :=
  .call (.veepromWrite offset buf size) fun (ret : Int) => .done ret

@[simp] def printf (text : List Byte) : Tool Unit := .call (.printf text) fun (_ : Unit) => .done ()

@[simp] def perror (text : List Byte) : Tool Unit := .call (.perror text) fun (_ : Unit) => .done ()

end Tool

/-! ## A veeprom that stores -/

/-- `(end_sector - start_sector + 1) * SECTOR_SIZE`. -/
def veepromCapacity : Nat := 512

structure Store where
  bytes : List Byte
  length_eq : bytes.length = veepromCapacity

namespace Store

def write (store : Store) (offset : Nat) (data : List Byte) : Store :=
  ⟨overlay store.bytes offset data, by rw [length_overlay, store.length_eq]⟩

/-- The same byte everywhere. -/
def filled (byte : Byte) : Store := ⟨List.replicate veepromCapacity byte, List.length_replicate⟩

theorem getElem?_filled (byte : Byte) {index : Nat} (inside : index < veepromCapacity) :
    (filled byte).bytes[index]? = some byte := List.getElem?_replicate_of_lt inside

/-- A write that changes its first byte shows. -/
theorem write_ne {store : Store} {offset : Nat} {old byte : Byte} (before : store.bytes[offset]? = some old)
    (differs : byte ≠ old) (data : List Byte) : store.write offset (byte :: data) ≠ store := by
  intro same
  obtain ⟨inside, _⟩ := List.getElem?_eq_some_iff.mp before
  have after : (store.write offset (byte :: data)).bytes[offset]? = some byte := by
    unfold write
    rw [getElem?_overlay_inside (Nat.le_refl _) (by simp) inside, Nat.sub_self, List.getElem?_cons_zero]
  rw [same, before] at after
  exact differs (Option.some.inj after).symm

end Store

/-- The veeprom, whether it is open, and what was printed. -/
structure ToolWorld where
  store : Store
  opened : Bool
  output : List Byte

/-- A veeprom of zeros, open. -/
def ToolWorld.zero : ToolWorld := ⟨.filled 0, true, []⟩

/-- The world after bytes were written. -/
def ToolWorld.writing (world : ToolWorld) (offset : Nat) (data : List Byte) : ToolWorld :=
  { world with store := world.store.write offset data }

/-- The world after a text was printed. -/
def ToolWorld.printing (world : ToolWorld) (text : List Byte) : ToolWorld :=
  { world with output := world.output ++ text }

/-- A field as the veeprom holds it. -/
def ToolWorld.field (world : ToolWorld) (offset size : Nat) : List Byte :=
  window world.store.bytes offset size

def Within (offset size : Int) : Prop := 0 ≤ offset ∧ 0 ≤ size ∧ offset + size ≤ veepromCapacity

instance (offset size : Int) : Decidable (Within offset size) :=
  inferInstanceAs (Decidable (0 ≤ offset ∧ 0 ≤ size ∧ offset + size ≤ veepromCapacity))

def answerTool : Handler ToolOp ToolOp.Res ToolWorld
  | .veepromInit, world => ((0 : Int), { world with opened := true })
  | .veepromExit, world => ((), { world with opened := false })
  | .veepromRead offset buf size, world =>
    if world.opened ∧ Within offset size then
      (((0 : Int), overlay buf 0 (window world.store.bytes offset.toNat size.toNat)), world)
    else (((-1 : Int), buf), world)
  | .veepromWrite offset buf size, world =>
    if world.opened ∧ Within offset size then
      ((0 : Int), { world with store := world.store.write offset.toNat (buf.take size.toNat) })
    else ((-1 : Int), world)
  | .printf text, world => ((), { world with output := world.output ++ text })
  | .perror _, world => ((), world)

section
variable (world : ToolWorld) (text : List Byte)

@[simp] theorem answerTool_veepromInit : answerTool .veepromInit world = (0, { world with opened := true }) := rfl

@[simp] theorem answerTool_veepromExit : answerTool .veepromExit world = ((), { world with opened := false }) :=
  rfl

@[simp] theorem answerTool_printf :
    answerTool (.printf text) world = ((), { world with output := world.output ++ text }) := rfl

@[simp] theorem answerTool_perror : answerTool (.perror text) world = ((), world) := rfl

variable {world}

theorem ToolWorld.field_writing {offset : Nat} {data : List Byte}
    (inside : offset + data.length ≤ veepromCapacity) :
    (world.writing offset data).field offset data.length = data :=
  window_overlay_self (by rw [world.store.length_eq]; exact inside)

theorem ToolWorld.length_field {offset size : Nat} (inside : offset + size ≤ veepromCapacity) :
    (world.field offset size).length = size :=
  length_window_of_le (by rw [world.store.length_eq]; exact inside)

theorem answerTool_read (opened : world.opened = true) {offset size : Nat}
    (inside : offset + size ≤ veepromCapacity) {buf : List Byte} (fits : size ≤ buf.length) :
    answerTool (.veepromRead offset buf size) world =
      ((0, world.field offset size ++ buf.drop size), world) := by
  have within : Within offset size := ⟨by omega, by omega, by omega⟩
  have length := world.length_field inside
  refine (if_pos ⟨opened, within⟩).trans ?_
  rw [Int.toNat_natCast, Int.toNat_natCast]
  change ((0, overlay buf 0 (world.field offset size)), world) = _
  rw [overlay_at_zero (by omega), length]

theorem answerTool_write (opened : world.opened = true) {offset size : Nat}
    (inside : offset + size ≤ veepromCapacity) (buf : List Byte) :
    answerTool (.veepromWrite offset buf size) world = (0, world.writing offset (buf.take size)) :=
  if_pos ⟨opened, by omega, by omega, by omega⟩

end

/-- Only a write changes the store. -/
theorem answerTool_store (call : ToolOp) (world : ToolWorld) :
    (answerTool call world).2.store = world.store ∨ ∃ offset buf size, call = .veepromWrite offset buf size ∧
      (answerTool call world).2.store = world.store.write offset.toNat (buf.take size.toNat) := by
  cases call with
  | veepromWrite offset buf size =>
    simp only [answerTool]
    split
    · exact .inr ⟨offset, buf, size, rfl, rfl⟩
    · exact .inl rfl
  | veepromRead offset buf size =>
    simp only [answerTool]
    split
    · exact .inl rfl
    · exact .inl rfl
  | veepromInit | veepromExit | printf _ | perror _ => exact .inl rfl

/-- The calls that can be refused, with what they return then. -/
def toolFailure : (call : ToolOp) → Option (ToolOp.Res call)
  | .veepromInit | .veepromWrite _ _ _ => some (-1 : Int)
  | .veepromRead _ buf _ => some ((-1 : Int), buf)
  | _ => none

def faultyTool : Handler ToolOp ToolOp.Res (Faulty ToolWorld) := withFailures toolFailure answerTool

end KernelLearning.OtaTool
