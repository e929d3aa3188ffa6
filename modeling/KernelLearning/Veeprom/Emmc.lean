import KernelLearning.Veeprom.Requests

/-!
# The library on an eMMC partition

The abstract model is a plain byte array; any sequence of requests inside the
sectors gives the replies and the contents of that array.
-/

namespace KernelLearning.Veeprom

open KernelLearning.Bytes KernelLearning.CSemantics KernelLearning.Interaction
open KernelLearning.Interaction.Program KernelLearning.Interaction.Faulty

/-! ## The array -/

/-- One request on an array in which the veeprom starts at sector `start`. -/
def referenceStep (start : Int) (array : List Byte) (access : Access) : Reply × List Byte :=
  match access with
  | .read offset buf size =>
    (⟨0, overlay buf 0 (window array (devicePosition start offset) size.toNat)⟩, array)
  | .write offset buf size =>
    (⟨0, buf⟩, overlay array (devicePosition start offset) (buf.take size.toNat))
  | .clear offset size _ =>
    (⟨0, []⟩, overlay array (devicePosition start offset) (List.replicate size.toNat 0))

def referenceRun (start : Int) : List Byte → List Access → List Reply × List Byte
  | array, [] => ([], array)
  | array, access :: rest =>
    let (reply, array) := referenceStep start array access
    let (replies, array) := referenceRun start array rest
    (reply :: replies, array)

/-- The device byte `index` lies in a range that the request writes or clears. -/
def Access.Writes (start : Int) (index : Nat) (access : Access) : Prop :=
  devicePosition start access.offset ≤ index ∧
    index < devicePosition start access.offset + access.stored.length

theorem referenceStep_array (start : Int) (array : List Byte) (access : Access) :
    (referenceStep start array access).2 =
      overlay array (devicePosition start access.offset) access.stored := by
  cases access with
  | read offset buf size => simp [referenceStep, Access.stored]
  | write offset buf size => rfl
  | clear offset size heap => rfl

@[simp] theorem referenceStep_ret (start : Int) (array : List Byte) (access : Access) :
    (referenceStep start array access).1.ret = 0 := by
  cases access <;> rfl

theorem referenceRun_ret (start : Int) (array : List Byte) (accesses : List Access) :
    ∀ reply ∈ (referenceRun start array accesses).1, reply.ret = 0 := by
  induction accesses generalizing array with
  | nil => intro reply member; cases member
  | cons access rest inductionHypothesis =>
    intro reply member
    rcases List.mem_cons.mp member with rfl | member
    · exact referenceStep_ret start array access
    · exact inductionHypothesis _ reply member

theorem referenceRun_frame {start : Int} {index : Nat} {accesses : List Access}
    (untouched : ∀ access ∈ accesses, ¬ access.Writes start index) (array : List Byte) :
    (referenceRun start array accesses).2[index]? = array[index]? := by
  induction accesses generalizing array with
  | nil => rfl
  | cons access rest inductionHypothesis =>
    have outside := untouched access (by simp)
    simp only [referenceRun]
    rw [inductionHypothesis (fun other member => untouched other (by simp [member])),
      referenceStep_array, getElem?_overlay_outside]
    unfold Access.Writes at outside
    omega

/-! ## Refinement -/

/-- The library in eMMC mode, with its block device open. -/
structure EmmcOpened (host : Host) (statics : Statics) (world : World) : Prop where
  mode : getBootMode host = .emmc
  bootmode : statics.bootmode = .emmc
  opened : statics.fd = descriptor
  positioned : ∃ position, world.2 = some position
  block : world.1.medium = .block

namespace EmmcOpened

variable {host : Host} {statics : Statics} {world : World} {access : Access}

theorem unerased (ready : EmmcOpened host statics world) (device : Device) :
    Unerased (statics.bootmode == .spinor) device := by
  rw [ready.bootmode]
  intro impossible
  cases impossible

theorem notNand (ready : EmmcOpened host statics world) : getBootMode host ≠ .spinand := by
  rw [ready.mode]
  decide

theorem inPlace (ready : EmmcOpened host statics world) : world.1.medium ≠ .ubi := by
  rw [ready.block]
  decide

/-- The buffer, the file offset and the bytes of the device may have changed. -/
theorem moved (ready : EmmcOpened host statics world) (buffer : Buffer) (position : Nat)
    (bytes : List Byte) :
    EmmcOpened host (statics.withBuffer buffer) ({ world.1 with bytes := bytes }, some position) where
  mode := ready.mode
  bootmode := by rw [← ready.bootmode]; unfold Statics.withBuffer; rfl
  opened := by rw [Statics.withBuffer_fd]; exact ready.opened
  positioned := ⟨position, rfl⟩
  block := ready.block

/-- A write or a clear, whatever is refused under it, puts a prefix of its bytes on the
device, and all of them unless it returns -1. -/
theorem advances (ready : EmmcOpened host statics world) {pattern : Nat → Bool} {failed : Bool}
    (request : InSectors statics access.offset access.size) (modifies : access.Modifies)
    (supplied : access.Supplied) :
    Delivers faultyAnswer (access.perform host statics) ⟨world, pattern, failed⟩ fun result after =>
      ∃ (moved : Nat) (buffer : Buffer) (position : Nat),
        moved ≤ access.stored.length ∧ result.2 = statics.withBuffer buffer ∧
          after.world = (world.1.overlaid (devicePosition statics.startSector access.offset)
            (access.stored.take moved), some position) ∧
          ((result.1 = ⟨0, access.given⟩ ∧ moved = access.stored.length ∧
              Passed (4 * (sectorSpan statics access.offset access.size).2) ⟨world, pattern, failed⟩ after) ∨
            (result.1 = ⟨-1, access.given⟩ ∧
              Refused (4 * (sectorSpan statics access.offset access.size).2)
                ⟨world, pattern, failed⟩ after)) := by
  have inPlace := ready.inPlace
  have notNand := ready.notNand
  obtain ⟨device, _⟩ := world
  obtain ⟨position, rfl⟩ := ready.positioned
  cases access with
  | read offset buf size => exact modifies.elim
  | write offset buf size =>
    unfold Access.perform
    apply (delivers_veepromWrite notNand request ready.opened inPlace (ready.unerased device) supplied
      rfl).bind
    rintro ⟨ret, statics'⟩ after ⟨moved, buffer, position', rfl, opened', bound, written, outcome⟩
    rw [Device.patch_block _ _ ready.block] at written
    refine delivers_done.mpr ⟨moved, buffer, position', bound, rfl, Prod.ext written opened', ?_⟩
    rcases outcome with ⟨rfl, passed, all⟩ | ⟨rfl, refused⟩
    · exact .inl ⟨rfl, all, passed⟩
    · exact .inr ⟨rfl, refused⟩
  | clear offset size heap =>
    unfold Access.perform
    apply (delivers_veepromClear notNand request ready.opened inPlace rfl).bind
    rintro ⟨ret, statics'⟩ after ⟨moved, buffer, position', rfl, opened', bound, written, outcome⟩
    rw [Device.patch_block _ _ ready.block] at written
    refine delivers_done.mpr ⟨moved, buffer, position', bound, rfl, Prod.ext written opened', ?_⟩
    rcases outcome with ⟨rfl, passed, all⟩ | ⟨rfl, refused⟩
    · exact .inl ⟨rfl, all, passed⟩
    · exact .inr ⟨rfl, refused⟩

/-- Without failures all the bytes arrive. -/
theorem stores (ready : EmmcOpened host statics world)
    (request : InSectors statics access.offset access.size) (modifies : access.Modifies)
    (supplied : access.Supplied) :
    Delivers answer (access.perform host statics) world fun result world' =>
      ∃ (buffer : Buffer) (position : Nat),
        result = (⟨0, access.given⟩, statics.withBuffer buffer) ∧
          world' = (world.1.overlaid (devicePosition statics.startSector access.offset) access.stored,
            some position) := by
  apply (Delivers.of_never (ready.advances request modifies supplied)).mono
  rintro ⟨reply, statics'⟩ world' ⟨moved, buffer, position, _, rfl, there, ⟨rfl, rfl, _⟩ | ⟨_, refused⟩⟩
  · rw [List.take_length] at there
    exact ⟨buffer, position, rfl, there⟩
  · exact (not_refused_never refused).elim

end EmmcOpened

/-- The sectors lie on the device, and transfers from them keep their byte positions
within an `int`. -/
structure EmmcReady (host : Host) (statics : Statics) (world : World) : Prop
    extends EmmcOpened host statics world where
  start_nonneg : 0 ≤ statics.startSector
  start_le_end : statics.startSector ≤ statics.endSector
  end_lt : (statics.endSector + 4) * 512 < 2 ^ 31
  fits : (statics.endSector + 1) * 512 ≤ world.1.bytes.length

/-- A request with 0 ≤ offset, 0 ≤ size and offset + size inside the sectors. -/
structure Access.Within (statics : Statics) (access : Access) : Prop where
  offset_nonneg : 0 ≤ access.offset
  size_nonneg : 0 ≤ access.size
  inside : access.offset + access.size ≤ (statics.endSector - statics.startSector + 1) * 512
  supplied : access.Supplied

namespace EmmcReady

variable {host : Host} {statics : Statics} {world : World} {access : Access}

theorem inSectors (ready : EmmcReady host statics world) (within : access.Within statics) :
    InSectors statics access.offset access.size where
  start_nonneg := ready.start_nonneg
  start_le_end := ready.start_le_end
  end_lt := by have := ready.end_lt; omega
  offset_nonneg := within.offset_nonneg
  size_nonneg := within.size_nonneg
  inside := within.inside
  capacity_lt := by have := ready.end_lt; have := ready.start_nonneg; omega

/-- One call does to the device what the array does, and is ready for the next one. -/
theorem perform (ready : EmmcReady host statics world) (within : access.Within statics) :
    Delivers answer (access.perform host statics) world fun result world' =>
      ∃ (buffer : Buffer) (position : Nat),
        result = ((referenceStep statics.startSector world.1.bytes access).1, statics.withBuffer buffer) ∧
          world' = ({ world.1 with bytes := (referenceStep statics.startSector world.1.bytes access).2 },
            some position) := by
  have request := ready.inSectors within
  cases access with
  | read offset buf size =>
    obtain ⟨device, _⟩ := world
    obtain ⟨position, rfl⟩ := ready.positioned
    have insideDevice : (devicePosition statics.startSector offset : Int) + size ≤ device.bytes.length := by
      have fits := ready.fits
      have startNonneg := ready.start_nonneg
      have inside : offset + size ≤ _ := within.inside
      have nonneg : 0 ≤ offset := within.offset_nonneg
      unfold devicePosition
      simp only at fits
      omega
    unfold Access.perform
    apply (Delivers.of_never (delivers_veepromRead ready.notNand request ready.opened
      within.supplied insideDevice rfl)).bind
    rintro ⟨ret, buf', statics'⟩ world' ⟨buffer, position', rfl, there, ⟨rfl, _, rfl⟩ | ⟨_, refused⟩⟩
    · exact delivers_done.mpr ⟨buffer, position', rfl, there⟩
    · exact (not_refused_never refused).elim
  | write offset buf size => exact ready.stores request trivial within.supplied
  | clear offset size heap => exact ready.stores request trivial within.supplied

theorem moved (ready : EmmcReady host statics world) (buffer : Buffer) (position : Nat)
    {bytes : List Byte} (same : bytes.length = world.1.bytes.length) :
    EmmcReady host (statics.withBuffer buffer) ({ world.1 with bytes := bytes }, some position) where
  toEmmcOpened := ready.toEmmcOpened.moved buffer position bytes
  start_nonneg := ready.start_nonneg
  start_le_end := ready.start_le_end
  end_lt := ready.end_lt
  fits := by
    have fits := ready.fits
    rw [← same] at fits
    exact fits

end EmmcReady

theorem length_referenceStep (start : Int) (array : List Byte) (access : Access) :
    (referenceStep start array access).2.length = array.length := by
  rw [referenceStep_array, length_overlay]

/-- Any sequence of requests inside the sectors behaves as on the array. -/
theorem performAll_refines_array {host : Host} {statics : Statics} {world : World} {accesses : List Access}
    (ready : EmmcReady host statics world) (within : ∀ access ∈ accesses, access.Within statics) :
    Delivers answer (performAll host statics accesses) world fun result world' =>
      result.1 = (referenceRun statics.startSector world.1.bytes accesses).1 ∧
        world'.1 =
          { world.1 with bytes := (referenceRun statics.startSector world.1.bytes accesses).2 } := by
  induction accesses generalizing statics world with
  | nil => exact delivers_done.mpr ⟨rfl, rfl⟩
  | cons access rest inductionHypothesis =>
    have next := within access (by simp)
    rw [performAll]
    apply (ready.perform next).bind
    rintro _ _ ⟨buffer, position, rfl, rfl⟩
    have ready' := ready.moved buffer position
      (length_referenceStep statics.startSector world.1.bytes access)
    apply (inductionHypothesis ready' (fun other member => by
      have later := within other (by simp [member])
      exact ⟨later.offset_nonneg, later.size_nonneg, later.inside, later.supplied⟩)).bind
    rintro ⟨replies, statics'⟩ ⟨device', offset'⟩ ⟨rfl, rfl⟩
    exact delivers_done.mpr ⟨rfl, rfl⟩

/-- In eMMC mode every call returns 0, a read gets what the array holds after the calls
before it, and a byte that no call writes or clears keeps its value. -/
theorem emmc_calls_refine_array {host : Host} {statics : Statics} {world : World}
    {accesses : List Access} (ready : EmmcReady host statics world)
    (within : ∀ access ∈ accesses, access.Within statics) :
    Delivers answer (performAll host statics accesses) world fun result world' =>
      result.1 = (referenceRun statics.startSector world.1.bytes accesses).1 ∧
        (∀ reply ∈ result.1, reply.ret = 0) ∧
        world'.1.bytes = (referenceRun statics.startSector world.1.bytes accesses).2 ∧
        ∀ index, (∀ access ∈ accesses, ¬ access.Writes statics.startSector index) →
          world'.1.bytes[index]? = world.1.bytes[index]? := by
  apply (performAll_refines_array ready within).mono
  rintro ⟨replies, statics'⟩ ⟨device, offset⟩ ⟨rfl, rfl⟩
  exact ⟨rfl, referenceRun_ret _ _ _, rfl, fun index untouched => referenceRun_frame untouched _⟩

/-! ## One sector of an eMMC partition -/

def emmcHost : Host where
  sizeofPointer := 8
  boardId := none
  bootMode := none

def emmcStatics (startSector endSector : Int) : Statics where
  devicePath := .mmcblk0p 1
  startSector := startSector
  endSector := endSector
  fd := descriptor
  buffer := .zero
  bootmode := .emmc

def emmcDevice (bytes : List Byte) : Device where
  medium := .block
  path := .mmcblk0p 1
  bytes := bytes
  updating := false
  mtd := none
  gpt := none

theorem emmcOpened_emmcDevice (startSector endSector : Int) (bytes : List Byte) (position : Nat) :
    EmmcOpened emmcHost (emmcStatics startSector endSector) (emmcDevice bytes, some position) where
  mode := rfl
  bootmode := rfl
  opened := rfl
  positioned := ⟨position, rfl⟩
  block := rfl

theorem emmcReady_emmcDevice {bytes : List Byte} (length : bytes.length = 512) (position : Nat) :
    EmmcReady emmcHost (emmcStatics 0 0) (emmcDevice bytes, some position) where
  toEmmcOpened := emmcOpened_emmcDevice _ _ _ _
  start_nonneg := by decide
  start_le_end := by decide
  end_lt := by decide
  fits := by
    change (0 + 1) * 512 ≤ (bytes.length : Int)
    omega

theorem emmc_calls_refine_array_oneSector :
    Delivers answer
      (performAll emmcHost (emmcStatics 0 0) [.write 510 [7, 8] 2, .read 509 [0, 0, 0] 3, .clear 511 1 []])
      (emmcDevice (List.replicate 512 0), some 0) fun result world' =>
        result.1 = (referenceRun 0 (List.replicate 512 0)
          [.write 510 [7, 8] 2, .read 509 [0, 0, 0] 3, .clear 511 1 []]).1 ∧
        world'.1.bytes[0]? = (List.replicate 512 (0 : Byte))[0]? := by
  have within : ∀ access ∈ [Access.write 510 [7, 8] 2, .read 509 [0, 0, 0] 3, .clear 511 1 []],
      access.Within (emmcStatics 0 0) := by
    intro access member
    simp only [List.mem_cons, List.not_mem_nil, or_false] at member
    rcases member with rfl | rfl | rfl <;> constructor <;>
      simp [Access.offset, Access.size, Access.Supplied, emmcStatics]
  apply (emmc_calls_refine_array (emmcReady_emmcDevice List.length_replicate 0) within).mono
  rintro result world' ⟨replies, _, _, untouched⟩
  refine ⟨replies, untouched 0 ?_⟩
  intro access member
  simp only [List.mem_cons, List.not_mem_nil, or_false] at member
  rcases member with rfl | rfl | rfl <;>
    simp [Access.Writes, Access.offset, Access.stored, devicePosition, emmcStatics]

end KernelLearning.Veeprom
