import KernelLearning.Veeprom.Sectors

/-!
# Requests on devices that are written in place

One lemma for each entry point outside SPI-NAND mode, under any pattern of
failing calls, and the sequences of requests that the results range over.
-/

namespace KernelLearning.Veeprom

open KernelLearning.Bytes KernelLearning.CSemantics KernelLearning.Interaction
open KernelLearning.Interaction.Program KernelLearning.Interaction.Faulty

/-! ## The entry points -/

section
variable {host : Host} {statics : Statics} {offset size : Int} {buf : List Byte} {device : Device}
  {position : Nat} {state : Faulty World}

theorem veepromRead_of_valid (mode : getBootMode host ≠ .spinand)
    (valid : isParameterValid statics offset size = true) :
    veepromRead host statics offset buf size =
      readSectors (sectorSpan statics offset size).1 (sectorSpan statics offset size).2 0 statics
        offset size 0 buf := by
  simp only [veepromRead, if_neg mode, valid]
  rfl

theorem veepromWrite_of_valid (mode : getBootMode host ≠ .spinand)
    (valid : isParameterValid statics offset size = true) :
    veepromWrite host statics offset buf size =
      updateSectors (statics.bootmode == .spinor) (callerRead buf) (sectorSpan statics offset size).1
        (sectorSpan statics offset size).2 0 statics offset size 0 := by
  simp only [veepromWrite, if_neg mode, valid]
  rfl

theorem veepromClear_of_valid {heap : List Byte} (mode : getBootMode host ≠ .spinand)
    (valid : isParameterValid statics offset size = true) :
    veepromClear host statics offset size heap =
      updateSectors false (fun _ count => .ok (List.replicate count.toNat 0))
        (sectorSpan statics offset size).1 (sectorSpan statics offset size).2 0 statics
        offset size 0 := by
  simp only [veepromClear, if_neg mode, valid]
  rfl

theorem delivers_veepromRead (mode : getBootMode host ≠ .spinand)
    (request : InSectors statics offset size) (opened : statics.fd = descriptor)
    (room : size ≤ buf.length)
    (inside : (devicePosition statics.startSector offset : Int) + size ≤ device.bytes.length)
    (here : state.world = (device, some position)) :
    Delivers faultyAnswer (veepromRead host statics offset buf size) state
      fun result after => ∃ (buffer : Buffer) (position' : Nat),
        result.2.2 = statics.withBuffer buffer ∧ after.world = (device, some position') ∧
          ((result.1 = 0 ∧ Passed (2 * (sectorSpan statics offset size).2) state after ∧
              result.2.1 = overlay buf 0
                (window device.bytes (devicePosition statics.startSector offset) size.toNat)) ∨
            (result.1 = -1 ∧ Refused (2 * (sectorSpan statics offset size).2) state after)) := by
  rw [veepromRead_of_valid mode request.valid]
  exact delivers_readSectors request.sweep opened
    (show ((0 : Nat) : Int) + size ≤ buf.length by omega) inside here

/-- What a write or a clear leaves behind: the first `moved` bytes of `data` are on the
device, all of them unless one of its calls was refused. -/
def Advanced (statics : Statics) (device : Device) (offset : Int) (data : List Byte) (calls : Nat)
    (before : Faulty World) (result : Int × Statics) (after : Faulty World) : Prop :=
  ∃ (moved : Nat) (buffer : Buffer) (position : Nat),
    result.2 = statics.withBuffer buffer ∧ after.world.2 = some position ∧ moved ≤ data.length ∧
      after.world.1 = device.patch (devicePosition statics.startSector offset) (data.take moved) ∧
      ((result.1 = 0 ∧ Passed calls before after ∧ moved = data.length) ∨
        (result.1 = -1 ∧ Refused calls before after))

theorem delivers_update {erase : Bool} {patch : (pos count : Int) → Except Fault (List Byte)}
    {data : List Byte} (patches : PatchesFrom patch data) (request : InSectors statics offset size)
    (opened : statics.fd = descriptor) (inPlace : device.medium ≠ .ubi)
    (unerased : Unerased erase device) (supply : size ≤ data.length)
    (here : state.world = (device, some position)) :
    Delivers faultyAnswer
      (updateSectors erase patch (sectorSpan statics offset size).1 (sectorSpan statics offset size).2 0
        statics offset size 0) state
      (Advanced statics device offset (data.take size.toNat)
        (4 * (sectorSpan statics offset size).2) state) := by
  have nonneg := request.size_nonneg
  apply (delivers_updateSectors patches request.sweep opened inPlace unerased
    (show ((0 : Nat) : Int) + size ≤ data.length by omega) here).mono
  rintro result after ⟨moved, buffer, position', statics', opened', bound, written, outcome⟩
  have length : (data.take size.toNat).length = size.toNat := by
    rw [List.length_take]
    omega
  refine ⟨moved, buffer, position', statics', opened', by omega, ?_, ?_⟩
  · rw [written, List.take_take, Nat.min_eq_left (by omega)]
    rfl
  · rcases outcome with ⟨done, passed, all⟩ | refused
    · exact .inl ⟨done, passed, by omega⟩
    · exact .inr refused

theorem delivers_veepromWrite (mode : getBootMode host ≠ .spinand)
    (request : InSectors statics offset size) (opened : statics.fd = descriptor)
    (inPlace : device.medium ≠ .ubi) (unerased : Unerased (statics.bootmode == .spinor) device)
    (supply : size ≤ buf.length) (here : state.world = (device, some position)) :
    Delivers faultyAnswer (veepromWrite host statics offset buf size) state
      (Advanced statics device offset (buf.take size.toNat)
        (4 * (sectorSpan statics offset size).2) state) := by
  rw [veepromWrite_of_valid mode request.valid]
  exact delivers_update (patchesFrom_callerRead buf) request opened inPlace unerased supply here

theorem delivers_veepromClear {heap : List Byte} (mode : getBootMode host ≠ .spinand)
    (request : InSectors statics offset size) (opened : statics.fd = descriptor)
    (inPlace : device.medium ≠ .ubi) (here : state.world = (device, some position)) :
    Delivers faultyAnswer (veepromClear host statics offset size heap) state
      (Advanced statics device offset (List.replicate size.toNat 0)
        (4 * (sectorSpan statics offset size).2) state) := by
  have nonneg := request.size_nonneg
  have unerased : Unerased false device := by simp [Unerased]
  have cleared := delivers_update (patchesFrom_zeros size.toNat) request opened inPlace unerased
    (by rw [List.length_replicate]; omega) here
  rw [List.take_replicate, Nat.min_self] at cleared
  rw [veepromClear_of_valid mode request.valid]
  exact cleared

end

/-! ## Sequences of requests -/

/-- A call of the library, with the caller's buffer or the heap block it works on. -/
inductive Access where
  | read (offset : Int) (buf : List Byte) (size : Int)
  | write (offset : Int) (buf : List Byte) (size : Int)
  | clear (offset size : Int) (heap : List Byte)

/-- The result of a call and the caller's buffer after it. -/
structure Reply where
  ret : Int
  buf : List Byte

namespace Access

def offset : Access → Int
  | .read offset _ _ | .write offset _ _ | .clear offset _ _ => offset

def size : Access → Int
  | .read _ _ size | .write _ _ size | .clear _ size _ => size

/-- The caller's buffer as it is passed in. -/
def given : Access → List Byte
  | .read _ buf _ | .write _ buf _ => buf
  | .clear _ _ _ => []

/-- The call is a write or a clear. -/
def Modifies : Access → Prop
  | .read _ _ _ => False
  | .write _ _ _ | .clear _ _ _ => True

/-- The caller's buffer holds as many bytes as the call is told. -/
def Supplied : Access → Prop
  | .read _ buf size | .write _ buf size => size ≤ buf.length
  | .clear _ _ _ => True

/-- The bytes that end up in the requested range. -/
def stored : Access → List Byte
  | .read _ _ _ => []
  | .write _ buf size => buf.take size.toNat
  | .clear _ size _ => List.replicate size.toNat 0

def perform (host : Host) (statics : Statics) : Access → Code (Reply × Statics)
  | .read offset buf size => do
    let (ret, buf, statics) ← veepromRead host statics offset buf size
    return (⟨ret, buf⟩, statics)
  | .write offset buf size => do
    let (ret, statics) ← veepromWrite host statics offset buf size
    return (⟨ret, buf⟩, statics)
  | .clear offset size heap => do
    let (ret, statics) ← veepromClear host statics offset size heap
    return (⟨ret, []⟩, statics)

end Access

/-- A rejected call changes nothing and performs no operation. -/
theorem perform_of_invalid {host : Host} {statics : Statics} {access : Access}
    (notNand : getBootMode host ≠ .spinand)
    (invalid : isParameterValid statics access.offset access.size = false) :
    access.perform host statics = .done (⟨-1, access.given⟩, statics) := by
  cases access with
  | read offset buf size =>
    change isParameterValid statics offset size = false at invalid
    simp only [Access.perform, veepromRead, if_neg notNand, invalid]
    rfl
  | write offset buf size =>
    change isParameterValid statics offset size = false at invalid
    simp only [Access.perform, veepromWrite, if_neg notNand, invalid]
    rfl
  | clear offset size heap =>
    change isParameterValid statics offset size = false at invalid
    simp only [Access.perform, veepromClear, if_neg notNand, invalid]
    rfl

/-- The calls one after the other. -/
def performAll (host : Host) : Statics → List Access → Code (List Reply × Statics)
  | statics, [] => return ([], statics)
  | statics, access :: rest => do
    let (reply, statics) ← access.perform host statics
    let (replies, statics) ← performAll host statics rest
    return (reply :: replies, statics)

end KernelLearning.Veeprom
