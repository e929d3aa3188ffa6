import KernelLearning.Interaction.Runs
import KernelLearning.Veeprom.Emmc

/-!
# The library on a UBI volume

In SPI-NAND mode a call reads the volume from wherever the file offset is, and a
write replaces the volume as a whole.  The results of both system calls go unlooked
at, so what a call does depends on which of its three fallible operations are refused
and on the offset that an earlier call left.
-/

namespace KernelLearning.Veeprom

open KernelLearning.Bytes KernelLearning.CSemantics KernelLearning.Interaction
open KernelLearning.Interaction.Program KernelLearning.Interaction.Faulty

/-! ## The system calls, one pattern entry at a time -/

/-- The pattern after its first entry. -/
def later (pattern : Nat → Bool) : Nat → Bool := fun index => pattern (index + 1)

section
variable {device : Device} {position : Nat} {offset : Option Nat} {pattern : Nat → Bool} {failed : Bool}

theorem nand_read :
    Delivers faultyAnswer (Call.read descriptor) ⟨(device, some position), pattern, failed⟩
      fun found after => after.pattern = later pattern ∧
        ((pattern 0 = true ∧ found = none ∧ after.world = (device, some position)) ∨
          (pattern 0 = false ∧ found = some (device.transfer position bufferSize) ∧
            ∃ position', after.world = (device, some position'))) := by
  unfold Call.read faultyAnswer
  rw [delivers_call, delivers_done,
    withFailures_fallible failure answer (.read descriptor bufferSize) rfl]
  cases hit : pattern 0 <;> simp [hit, answer] <;> rfl

theorem nand_ubiVolumeUpdate (bytes : Nat) :
    Delivers faultyAnswer (Call.ubiVolumeUpdate descriptor bytes) ⟨(device, some position), pattern, failed⟩
      fun started after => after.pattern = later pattern ∧
        ((pattern 0 = true ∧ started = -1 ∧ after.world = (device, some position)) ∨
          (pattern 0 = false ∧ started = device.beginUpdate.1 ∧
            after.world = (device.beginUpdate.2, some position))) := by
  unfold Call.ubiVolumeUpdate faultyAnswer
  rw [delivers_call, delivers_done,
    withFailures_fallible failure answer (.ubiVolumeUpdate descriptor bytes) rfl]
  cases hit : pattern 0 <;> simp [hit, answer] <;> rfl

theorem nand_write (data : List Byte) :
    Delivers faultyAnswer (Call.write descriptor data) ⟨(device, some position), pattern, failed⟩
      fun _ after => ∃ offset', (pattern 0 = true ∧ after.world = (device, offset')) ∨
        (pattern 0 = false ∧ after.world = ((device.store position data).2, offset')) := by
  unfold Call.write faultyAnswer
  rw [delivers_call, delivers_done, withFailures_fallible failure answer (.write descriptor data) rfl]
  cases hit : pattern 0 <;> simp [hit, answer]

theorem delivers_openDevice (path : DevicePath) (world : World) :
    Delivers faultyAnswer (Call.openDevice path) ⟨world, pattern, failed⟩
      fun fd after => (fd, after.world) = answer (.openDevice path) world ∧ after.pattern = pattern := by
  unfold Call.openDevice faultyAnswer
  rw [delivers_call, delivers_done, withFailures_infallible rfl]
  exact ⟨rfl, rfl⟩

theorem delivers_accessUbi (world : World) :
    Delivers faultyAnswer Call.accessUbi ⟨world, pattern, failed⟩
      fun present after => present = decide (world.1.path = .ubi) ∧ after = ⟨world, pattern, failed⟩ := by
  unfold Call.accessUbi faultyAnswer
  rw [delivers_call, delivers_done, withFailures_infallible rfl]
  exact ⟨rfl, rfl⟩

theorem delivers_veepromExit {statics : Statics} (opened : statics.fd = descriptor) :
    Delivers faultyAnswer (veepromExit statics) ⟨(device, offset), pattern, failed⟩
      fun statics' after => statics'.fd = -1 ∧ after = ⟨(device, none), pattern, failed⟩ := by
  unfold veepromExit Call.sync Call.close
  rw [opened]
  exact ⟨_, _, rfl, rfl, rfl⟩

end

/-! ## The two entry points -/

/-- Where the next read starts: at 0 when the descriptor is opened for it. -/
def StandsAt (statics : Statics) (world : World) (position : Nat) : Prop :=
  (statics.fd = -1 ∧ position = 0) ∨ (statics.fd = descriptor ∧ world.2 = some position)

section
variable {host : Host} {statics : Statics} {device : Device} {descriptorOffset : Option Nat}
  {position : Nat} {pattern : Nat → Bool} {failed : Bool}

theorem delivers_selectDevice_spinand {world : World} (bootmode : statics.bootmode = .spinand)
    (path : world.1.path = .ubi) :
    Delivers faultyAnswer (selectDevice host statics) ⟨world, pattern, failed⟩
      fun result after => result.1 = true ∧ result.2.devicePath = .ubi ∧
        result.2.buffer = statics.buffer ∧ after = ⟨world, pattern, failed⟩ := by
  unfold selectDevice
  rw [bootmode]
  apply (delivers_accessUbi world).bind
  rintro present after ⟨rfl, rfl⟩
  rw [path]
  exact delivers_done.mpr ⟨rfl, rfl, rfl, rfl⟩

theorem delivers_veepromInit_spinand (mode : getBootMode host = .spinand) (path : device.path = .ubi) :
    Delivers faultyAnswer (veepromInit host statics) ⟨(device, descriptorOffset), pattern, failed⟩
      fun result after => result.2.fd = descriptor ∧ result.2.buffer = statics.buffer ∧
        after.world = (device, some 0) ∧ after.pattern = pattern := by
  unfold veepromInit
  apply (delivers_openDevice statics.devicePath (device, descriptorOffset)).bind
  rintro fd ⟨world, pattern', failed'⟩ ⟨answered, rfl⟩
  simp only [answer] at answered
  by_cases known : statics.devicePath = device.path
  · rw [if_pos known, Prod.mk.injEq] at answered
    obtain ⟨rfl, rfl⟩ := answered
    exact delivers_done.mpr ⟨rfl, rfl, rfl, rfl⟩
  · rw [if_neg known, Prod.mk.injEq] at answered
    obtain ⟨rfl, rfl⟩ := answered
    simp only [show (-1 : Int) < 0 by decide, if_true]
    apply (delivers_selectDevice_spinand mode path).bind
    rintro ⟨found, statics'⟩ _ ⟨rfl, ubi, same, rfl⟩
    simp only [Bool.not_true, Bool.false_eq_true, if_false]
    change statics'.devicePath = .ubi at ubi
    apply (delivers_openDevice statics'.devicePath (device, descriptorOffset)).bind
    rintro fd ⟨world, pattern', failed'⟩ ⟨answered, rfl⟩
    simp only [answer, ubi, path, if_true, Prod.mk.injEq] at answered
    obtain ⟨rfl, rfl⟩ := answered
    exact delivers_done.mpr ⟨rfl, same, rfl, rfl⟩

theorem delivers_ensureOpen (mode : getBootMode host = .spinand) (path : device.path = .ubi)
    (stands : StandsAt statics (device, descriptorOffset) position) :
    Delivers faultyAnswer (ensureOpen host statics) ⟨(device, descriptorOffset), pattern, failed⟩
      fun statics' after => statics'.fd = descriptor ∧ statics'.buffer = statics.buffer ∧
        after.world = (device, some position) ∧ after.pattern = pattern := by
  unfold ensureOpen
  rcases stands with ⟨closed, rfl⟩ | ⟨opened, rfl⟩
  · rw [if_pos closed]
    apply (delivers_veepromInit_spinand mode path).bind
    rintro ⟨ret, statics'⟩ after outcome
    exact delivers_done.mpr outcome
  · rw [if_neg (by rw [opened]; decide)]
    exact delivers_done.mpr ⟨opened, rfl, rfl, rfl⟩

/-- What a call finds in its buffer after its `read`. -/
def nandLoaded (refused : Bool) (device : Device) (position : Nat) : List Byte :=
  if refused then Buffer.zero.bytes else load 2048 0 (window device.bytes position 2048)

theorem length_nandLoaded (refused : Bool) (device : Device) (position : Nat) :
    (nandLoaded refused device position).length = 2048 := by
  cases refused with
  | true => rw [nandLoaded, if_pos rfl, Buffer.length_eq, bufferSize]
  | false => rw [nandLoaded, if_neg Bool.false_ne_true, length_load]

/-- The buffer after the `read` of a call. -/
theorem nand_read_buffer {buffer : Buffer} (cleared : buffer = .zero) (position : Nat) :
    Delivers faultyAnswer (Call.read descriptor) ⟨(device, some position), pattern, failed⟩
      fun found after => after.pattern = later pattern ∧ (∃ position', after.world = (device, some position')) ∧
        (buffer.afterRead found).bytes = nandLoaded (pattern 0) device position := by
  apply nand_read.mono
  rintro found after ⟨used, ⟨hit, rfl, there⟩ | ⟨hit, rfl, there⟩⟩
  · refine ⟨used, ⟨_, there⟩, ?_⟩
    rw [hit, cleared, nandLoaded, if_pos rfl, Buffer.afterRead]
  · refine ⟨used, there, ?_⟩
    rw [hit, cleared, nandLoaded, if_neg Bool.false_ne_true, ← loadedBuffer_bytes]
    unfold Buffer.afterRead loadedBuffer
    rfl

theorem delivers_veepromRead_spinand {offset size : Int} {buf : List Byte}
    (mode : getBootMode host = .spinand) (path : device.path = .ubi)
    (stands : StandsAt statics (device, descriptorOffset) position) (inRange : Buffer.InRange offset size)
    (room : size ≤ buf.length) :
    Delivers faultyAnswer (veepromRead host statics offset buf size)
      ⟨(device, descriptorOffset), pattern, failed⟩
      fun result after => result.1 = 0 ∧ result.2.2.fd = -1 ∧ after.world = (device, none) ∧
        result.2.1 =
          overlay buf 0 (window (nandLoaded (pattern 0) device position) offset.toNat size.toNat) := by
  have ⟨offsetNonneg, sizeNonneg, fits⟩ := inRange
  unfold veepromRead
  rw [if_pos mode]
  have stands' : StandsAt (statics.withBuffer .zero) (device, descriptorOffset) position := by
    simpa [StandsAt] using stands
  apply (delivers_ensureOpen mode path stands').bind
  rintro statics' ⟨world, pattern', failed'⟩ ⟨opened, cleared, rfl, rfl⟩
  rw [opened]
  apply (nand_read_buffer (cleared.trans (Statics.withBuffer_buffer _ _)) position).bind
  rintro found ⟨world, pattern'', failed''⟩ ⟨rfl, ⟨position', rfl⟩, bytes⟩
  simp only
  generalize statics'.buffer.afterRead found = buffer at bytes
  have length : (window (nandLoaded (pattern' 0) device position) offset.toNat size.toNat).length =
      size.toNat := length_window_of_le (by rw [length_nandLoaded]; unfold bufferSize at fits; omega)
  have copied : callerWrite buf 0 (window (nandLoaded (pattern' 0) device position) offset.toNat size.toNat) =
      .ok (overlay buf 0 (window (nandLoaded (pattern' 0) device position) offset.toNat size.toNat)) :=
    callerWrite_inside 0 (by omega)
  rw [Buffer.copyOut_inRange _ inRange, attempt_ok, done_bind, bytes, copied, attempt_ok, done_bind]
  apply (delivers_veepromExit (by rw [Statics.withBuffer_fd, opened])).bind
  rintro statics'' after ⟨closed, rfl⟩
  exact delivers_done.mpr ⟨rfl, closed, rfl, rfl⟩

/-- The volume after a complete update. -/
def Device.updated (device : Device) (image : List Byte) : Device :=
  { device with bytes := image, updating := false }

/-- The volume once an update has started. -/
def Device.emptied (device : Device) : Device := { device with bytes := [], updating := true }

theorem Device.beginUpdate_ubi (ubi : device.medium = .ubi) : device.beginUpdate = (0, device.emptied) := by
  unfold Device.beginUpdate
  rw [if_pos ubi]
  rfl

theorem Device.store_emptied (ubi : device.medium = .ubi) (offset : Nat) (data : List Byte) :
    (device.emptied.store offset data).2 = device.updated data := by
  unfold Device.store Device.emptied
  simp only [ubi, if_true]
  rw [Device.updated, ubi]

/-- By the pattern: the ioctl is refused, or else the data that follows it is lost, or else
the volume gets a new image. -/
theorem delivers_veepromWrite_spinand {offset size : Int} {buf : List Byte}
    (mode : getBootMode host = .spinand) (path : device.path = .ubi) (ubi : device.medium = .ubi)
    (stands : StandsAt statics (device, descriptorOffset) position) (inRange : Buffer.InRange offset size)
    (supply : size ≤ buf.length) :
    Delivers faultyAnswer (veepromWrite host statics offset buf size)
      ⟨(device, descriptorOffset), pattern, failed⟩
      fun result after =>
        (pattern 1 = true ∧ result.1 = -1 ∧ result.2.fd = descriptor ∧
            ∃ position', after.world = (device, some position')) ∨
          (pattern 1 = false ∧ result.1 = 0 ∧ result.2.fd = -1 ∧
            ((pattern 2 = true ∧ after.world = (device.emptied, none)) ∨
              (pattern 2 = false ∧ after.world = (device.updated (overlay
                (nandLoaded (pattern 0) device position) offset.toNat (buf.take size.toNat)), none)))) := by
  have ⟨offsetNonneg, sizeNonneg, fits⟩ := inRange
  unfold veepromWrite
  rw [if_pos mode]
  have stands' : StandsAt (statics.withBuffer .zero) (device, descriptorOffset) position := by
    simpa [StandsAt] using stands
  apply (delivers_ensureOpen mode path stands').bind
  rintro statics' ⟨world, pattern', failed'⟩ ⟨opened, cleared, rfl, rfl⟩
  rw [opened]
  apply (nand_read_buffer (cleared.trans (Statics.withBuffer_buffer _ _)) position).bind
  rintro found ⟨world, pattern'', failed''⟩ ⟨rfl, ⟨position', rfl⟩, bytes⟩
  simp only
  generalize statics'.buffer.afterRead found = buffer at bytes
  have source : callerRead buf 0 size = .ok (buf.take size.toNat) := by
    unfold callerRead
    rw [if_pos ⟨by omega, sizeNonneg, by omega⟩]
    rfl
  obtain ⟨buffer', copied, bytes'⟩ := buffer.copyIn_inRange inRange (buf.take size.toNat)
  rw [source, copied, attempt_ok, done_bind, Statics.withBuffer_fd, opened]
  apply (nand_ubiVolumeUpdate bufferSize).bind
  -- the ioctl is refused, or the volume is emptied and the data follows
  rintro started ⟨world, pattern'', failed''⟩ ⟨rfl, ⟨hit, rfl, rfl⟩ | ⟨clear, rfl, rfl⟩⟩
  · rw [if_pos (by decide)]
    exact delivers_done.mpr (.inl ⟨hit, rfl, (Statics.withBuffer_fd _ _).trans opened, _, rfl⟩)
  · rw [device.beginUpdate_ubi ubi, if_neg (by simp)]
    apply (nand_write buffer'.bytes).bind
    rw [device.store_emptied ubi, bytes', bytes]
    rintro written ⟨world, pattern'', failed''⟩ ⟨offset', ⟨hit, rfl⟩ | ⟨arrives, rfl⟩⟩
    · apply (delivers_veepromExit ((Statics.withBuffer_fd _ _).trans opened)).bind
      rintro statics'' after ⟨closed, rfl⟩
      exact delivers_done.mpr (.inr ⟨clear, rfl, closed, .inl ⟨hit, rfl⟩⟩)
    · apply (delivers_veepromExit ((Statics.withBuffer_fd _ _).trans opened)).bind
      rintro statics'' after ⟨closed, rfl⟩
      exact delivers_done.mpr (.inr ⟨clear, rfl, closed, .inr ⟨arrives, rfl⟩⟩)

end

/-! ## Runs of reads and writes -/

/-- The library in SPI-NAND mode between two calls, over a volume of `BUFFER_SIZE` bytes. -/
structure NandReady (host : Host) (statics : Statics) (world : World) : Prop where
  mode : getBootMode host = .spinand
  path : world.1.path = .ubi
  ubi : world.1.medium = .ubi
  image : world.1.bytes.length = bufferSize
  stands : ∃ position, StandsAt statics world position

/-- A read or a write of a range inside the 2048 bytes. -/
def Access.Transfers (access : Access) : Prop :=
  match access with
  | .read offset buf size | .write offset buf size => Buffer.InRange offset size ∧ size ≤ buf.length
  | .clear _ _ _ => False

/-- A call starts with the descriptor closed or at the start of the volume.  A read is not
refused its `read`; a write is refused its `ioctl`, or neither its `read` nor its `write`. -/
def Undisturbed (statics : Statics) (state : Faulty World) (access : Access) : Prop :=
  StandsAt statics state.world 0 ∧
    match access with
    | .write _ _ _ => state.pattern 1 = true ∨ (state.pattern 0 = false ∧ state.pattern 2 = false)
    | .read _ _ _ | .clear _ _ _ => state.pattern 0 = false

/-- The call returned 0 and did to the volume what it does to an array, or it returned -1
and left the volume alone. -/
def JobDone (before : Faulty World) (access : Access) (reply : Reply) (after : Faulty World) : Prop :=
  (reply.ret = 0 ∧ (reply, after.world.1.bytes) = referenceStep 0 before.world.1.bytes access) ∨
    (reply.ret = -1 ∧ after.world.1.bytes = before.world.1.bytes)

section
variable {host : Host} {statics : Statics} {state : Faulty World} {access : Access}

theorem devicePosition_zero (offset : Int) : devicePosition 0 offset = offset.toNat := by
  simp [devicePosition]

/-- A read from the start finds the whole volume. -/
theorem nandLoaded_zero {device : Device} (image : device.bytes.length = bufferSize) :
    nandLoaded false device 0 = device.bytes := by
  rw [bufferSize] at image
  rw [nandLoaded, if_neg Bool.false_ne_true, load_window_zero 0 image]

/-- An undisturbed call does its job and leaves the library ready. -/
theorem NandReady.perform (ready : NandReady host statics state.world)
    (transfers : access.Transfers) (undisturbed : Undisturbed statics state access) :
    Delivers faultyAnswer (access.perform host statics) state fun result after =>
      NandReady host result.2 after.world ∧ JobDone state access result.1 after := by
  obtain ⟨⟨device, descriptorOffset⟩, pattern, failed⟩ := state
  obtain ⟨mode, path, ubi, image, _⟩ := ready
  obtain ⟨stands, kept⟩ := undisturbed
  cases access with
  | read offset buf size =>
    obtain ⟨inRange, room⟩ := transfers
    apply (delivers_veepromRead_spinand mode path stands inRange room).bind
    rintro ⟨ret, buf', statics'⟩ ⟨world, pattern', failed'⟩ ⟨rfl, closed, rfl, copied⟩
    refine delivers_done.mpr ⟨⟨mode, path, ubi, image, 0, .inl ⟨closed, rfl⟩⟩, .inl ⟨rfl, ?_⟩⟩
    change pattern 0 = false at kept
    simp only [referenceStep, devicePosition_zero]
    rw [kept, nandLoaded_zero image] at copied
    exact congrArg (fun buf => ((⟨0, buf⟩ : Reply), device.bytes)) copied
  | write offset buf size =>
    obtain ⟨inRange, supply⟩ := transfers
    apply (delivers_veepromWrite_spinand mode path ubi stands inRange supply).bind
    rintro ⟨ret, statics'⟩ ⟨world, pattern', failed'⟩
      (⟨hit, rfl, opened, position', rfl⟩ | ⟨clear, rfl, closed, lost | ⟨arrives, rfl⟩⟩)
    · exact delivers_done.mpr
        ⟨⟨mode, path, ubi, image, position', .inr ⟨opened, rfl⟩⟩, .inr ⟨rfl, rfl⟩⟩
    · rcases kept with refused | ⟨_, arrives⟩
      · cases clear.symm.trans refused
      · cases lost.1.symm.trans arrives
    · have loaded : pattern 0 = false := by
        rcases kept with refused | ⟨loaded, _⟩
        · cases clear.symm.trans refused
        · exact loaded
      refine delivers_done.mpr
        ⟨⟨mode, path, ubi, ?_, 0, .inl ⟨closed, rfl⟩⟩, .inl ⟨rfl, ?_⟩⟩
      · change (overlay _ _ _).length = bufferSize
        rw [length_overlay, length_nandLoaded, bufferSize]
      · simp only [referenceStep, devicePosition_zero, Device.updated]
        rw [loaded, nandLoaded_zero image]
  | clear offset size heap => exact transfers.elim

/-- If nothing is refused, a call returns 0 and leaves the descriptor closed. -/
theorem NandReady.perform_never {world : World} (failed : Bool) (ready : NandReady host statics world)
    (stands : StandsAt statics world 0) (transfers : access.Transfers) :
    Delivers faultyAnswer (access.perform host statics) ⟨world, never, failed⟩ fun result after =>
      result.1.ret = 0 ∧ StandsAt result.2 after.world 0 ∧ after.pattern = never := by
  obtain ⟨device, descriptorOffset⟩ := world
  obtain ⟨mode, path, ubi, _, _⟩ := ready
  cases access with
  | read offset buf size =>
    obtain ⟨inRange, room⟩ := transfers
    apply (Delivers.stays_never (delivers_veepromRead_spinand mode path stands inRange room)).bind
    rintro ⟨ret, buf', statics'⟩ after ⟨⟨rfl, closed, _⟩, never⟩
    exact delivers_done.mpr ⟨rfl, .inl ⟨closed, rfl⟩, never⟩
  | write offset buf size =>
    obtain ⟨inRange, supply⟩ := transfers
    apply (Delivers.stays_never (delivers_veepromWrite_spinand mode path ubi stands inRange supply)).bind
    rintro ⟨ret, statics'⟩ after ⟨⟨refused, _⟩ | ⟨_, rfl, closed, _⟩, never⟩
    · cases refused
    · exact delivers_done.mpr ⟨rfl, .inl ⟨closed, rfl⟩, never⟩
  | clear offset size heap => exact transfers.elim

/-- In a run of undisturbed calls every call does its job, and so does any further one. -/
theorem nand_run_does_every_job {world : World} {pattern : Nat → Bool}
    {config : Statics × Faulty World} {events : List (Event Statics Access Reply (Faulty World))}
    (ready : NandReady host statics world)
    (calls : Run (Access.perform host) faultyAnswer (statics, Faulty.start world pattern) config events)
    (transfers : ∀ event ∈ events, event.request.Transfers)
    (undisturbed : ∀ event ∈ events, Undisturbed event.localBefore event.before event.request) :
    (∀ event ∈ events, JobDone event.before event.request event.reply event.after) ∧
      ∀ access : Access, access.Transfers → Undisturbed config.1 config.2 access →
        Delivers faultyAnswer (access.perform host config.1) config.2 fun result after =>
          JobDone config.2 access result.1 after := by
  have invariant := calls.ensures
    (fun locals state access (ready : NandReady host locals state.world)
      (allowed : access.Transfers ∧ Undisturbed locals state access) => ready.perform allowed.1 allowed.2)
    ready fun event member => ⟨transfers event member, undisturbed event member⟩
  refine ⟨invariant.2, fun access transfer steady => ?_⟩
  apply (invariant.1.perform transfer steady).mono
  rintro result after ⟨_, done⟩
  exact done

end

/-! ## A volume of ones -/

def nandHost : Host where
  sizeofPointer := 8
  boardId := some []
  bootMode := some (ascii "1")

def nandDevice (bytes : List Byte) : Device where
  medium := .ubi
  path := .ubi
  bytes := bytes
  updating := false
  mtd := none
  gpt := none

theorem nandReady_nandDevice {bytes : List Byte} (image : bytes.length = bufferSize) :
    NandReady nandHost Statics.initial (nandDevice bytes, none) where
  mode := by decide
  path := rfl
  ubi := rfl
  image := image
  stands := ⟨0, .inl ⟨rfl, rfl⟩⟩

/-- The byte that a write stored is what a read finds. -/
theorem nand_run_does_every_job_writeThenRead :
    ∃ config write read, Run (Access.perform nandHost) faultyAnswer (Statics.initial,
        Faulty.start (nandDevice (List.replicate bufferSize 1), none) never) config [write, read] ∧
      write.request = .write 8 [7] 1 ∧ read.request = .read 8 [0] 1 ∧ read.reply = ⟨0, [7]⟩ := by
  have image : (List.replicate bufferSize (1 : Byte)).length = bufferSize := List.length_replicate
  generalize List.replicate bufferSize (1 : Byte) = bytes at image
  have ready := nandReady_nandDevice image
  have writes : Access.Transfers (.write 8 [7] 1) := ⟨by decide, by decide⟩
  have reads : Access.Transfers (.read 8 [0] 1) := ⟨by decide, by decide⟩
  have writeSteady : Undisturbed Statics.initial (Faulty.start (nandDevice bytes, none) never) (.write 8 [7] 1) :=
    ⟨.inl ⟨rfl, rfl⟩, .inr ⟨rfl, rfl⟩⟩
  obtain ⟨⟨wrote, statics⟩, ⟨world, _, failed⟩, stored, returned, stands, rfl⟩ :=
    ready.perform_never false (.inl ⟨rfl, rfl⟩) writes
  have ready' := ((ready.perform writes writeSteady).of_run stored).1
  have readSteady : Undisturbed statics ⟨world, never, failed⟩ (.read 8 [0] 1) := ⟨stands, rfl⟩
  obtain ⟨⟨found, statics'⟩, after, loaded, returned', _, _⟩ := ready'.perform_never failed stands reads
  have calls := Run.call (Run.call Run.start stored) loaded
  refine ⟨_, _, _, calls, rfl, rfl, ?_⟩
  have done := (nand_run_does_every_job ready calls (by simpa using ⟨writes, reads⟩)
    (by simpa using ⟨writeSteady, readSteady⟩)).1
  simp only [List.nil_append, List.cons_append, List.forall_mem_cons, JobDone] at done
  obtain ⟨⟨_, write⟩ | ⟨refused, _⟩, ⟨_, read⟩ | ⟨refused', _⟩, _⟩ := done
  · have stored : world.1.bytes = overlay bytes 8 [7] := congrArg Prod.snd write
    have found_eq : found = ⟨0, overlay [0] 0 (window world.1.bytes 8 1)⟩ := congrArg Prod.fst read
    have kept : window (overlay bytes 8 [7]) 8 1 = [7] :=
      @window_overlay_self _ bytes 8 [7] (by rw [image, bufferSize]; decide)
    rw [stored, kept] at found_eq
    exact found_eq
  · cases returned'.symm.trans refused'
  all_goals cases returned.symm.trans refused

/-- A read that is refused its `read` returns 0 and a zero where the volume holds a one. -/
theorem not_nand_every_job_done :
    ¬ ∀ config events, Run (Access.perform nandHost) faultyAnswer (Statics.initial,
        Faulty.start (nandDevice (List.replicate bufferSize 1), none) fun index => index = 0) config events →
      (∀ event ∈ events, event.request.Transfers) →
        ∀ event ∈ events, JobDone event.before event.request event.reply event.after := by
  have image : (List.replicate bufferSize (1 : Byte)).length = bufferSize := List.length_replicate
  have first : window (List.replicate bufferSize (1 : Byte)) 0 1 = [1] := by
    rw [window, List.drop_zero, List.take_replicate]
    rfl
  generalize List.replicate bufferSize (1 : Byte) = bytes at image first
  have transfers : Access.Transfers (.read 0 [9] 1) := ⟨by decide, by decide⟩
  have ready := nandReady_nandDevice image
  have loaded : window (nandLoaded true (nandDevice bytes) 0) 0 1 = [0] := by
    rw [nandLoaded, if_pos rfl, Buffer.zero, window, List.drop_zero, List.take_replicate]
    rfl
  have returns : Delivers faultyAnswer (Access.perform nandHost Statics.initial (.read 0 [9] 1))
      (Faulty.start (nandDevice bytes, none) fun index => index = 0) fun result _ =>
        result.1 = ⟨0, [0]⟩ := by
    apply (delivers_veepromRead_spinand ready.mode ready.path (.inl ⟨rfl, rfl⟩) transfers.1
      transfers.2).bind
    rintro ⟨ret, buf, statics⟩ after ⟨rfl, _, _, copied⟩
    rw [decide_eq_true rfl] at copied
    change buf = overlay [9] 0 (window (nandLoaded true (nandDevice bytes) 0) 0 1) at copied
    rw [loaded] at copied
    exact delivers_done.mpr (congrArg (Reply.mk 0) copied)
  intro everyJobDone
  obtain ⟨⟨reply, statics⟩, after, finished, rfl⟩ := returns
  have done := everyJobDone _ _ (Run.call Run.start finished) (by simpa using transfers) _
    (List.mem_singleton_self _)
  rcases done with ⟨_, same⟩ | ⟨refused, _⟩
  · have read := congrArg (fun outcome => outcome.1.buf) same
    change [0] = overlay [9] 0 (window bytes 0 1) at read
    rw [first] at read
    cases read
  · cases refused

end KernelLearning.Veeprom
