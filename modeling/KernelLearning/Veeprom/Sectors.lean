import KernelLearning.Veeprom.Devices
import KernelLearning.Veeprom.Library

/-!
# The sector loops

`Sweep` is the invariant of the three loops: which sector comes next, and that the
sectors left are exactly the ones the rest of the request touches.  One lemma for
each step of an iteration, and one for each loop, on every device that is written
in place.
-/

namespace KernelLearning.Veeprom

open KernelLearning.Bytes KernelLearning.CSemantics KernelLearning.Interaction
open KernelLearning.Interaction.Program KernelLearning.Interaction.Faulty

/-- A loop of `remaining` iterations from sector `left + i` on, with `offset` and
`size` as they stand. -/
structure Sweep (start left : Int) (remaining i : Nat) (offset size : Int) : Prop where
  start_nonneg : 0 ≤ start
  size_nonneg : 0 ≤ size
  offset_nonneg : 0 ≤ offset
  end_lt : offset + size < 2 ^ 31
  addressable : left + i + remaining ≤ 2 ^ 23
  here : remaining ≠ 0 →
    (left + i - start) * 512 ≤ offset ∧ offset < (left + i - start) * 512 + 512
  exhausted : remaining = 0 → size = 0
  covered : offset + size ≤ (left + i + remaining - start) * 512
  needed : 2 ≤ remaining → (left + i + remaining - 1 - start) * 512 < offset + size

/-- Where a loop stands in the current sector, and what it takes from it. -/
def innerOffset (start left : Int) (i : Nat) (offset : Int) : Int :=
  offset - (left + i - start) * 512

def operateCount (start left : Int) (i : Nat) (offset size : Int) : Int :=
  min size (512 - innerOffset start left i offset)

namespace Sweep

variable {start left offset size : Int} {remaining i : Nat}

theorem inner_bounds (sweep : Sweep start left (remaining + 1) i offset size) :
    0 ≤ innerOffset start left i offset ∧ innerOffset start left i offset < 512 := by
  have here := sweep.here (by omega)
  unfold innerOffset
  omega

theorem count_bounds (sweep : Sweep start left (remaining + 1) i offset size) :
    0 ≤ operateCount start left i offset size ∧ operateCount start left i offset size ≤ size ∧
      innerOffset start left i offset + operateCount start left i offset size ≤ 512 := by
  have inner := sweep.inner_bounds
  have nonneg := sweep.size_nonneg
  unfold operateCount
  omega

/-- The unsigned arithmetic of the source does not wrap inside a sweep. -/
theorem split {statics : Statics} (sweep : Sweep statics.startSector left (remaining + 1) i offset size) :
    splitSector statics left i offset size =
      (innerOffset statics.startSector left i offset,
        operateCount statics.startSector left i offset size) := by
  have inner := sweep.inner_bounds
  have nonneg := sweep.size_nonneg
  have bound := sweep.end_lt
  have offsetNonneg := sweep.offset_nonneg
  have offsetInner : toUInt32 (offset - (left + i - statics.startSector) * 512) =
      innerOffset statics.startSector left i offset := by
    unfold innerOffset at *
    exact toUInt32_of_isUInt32 ⟨by omega, by omega⟩
  have remainInner : toUInt32 (512 - innerOffset statics.startSector left i offset) =
      512 - innerOffset statics.startSector left i offset := toUInt32_of_isUInt32 ⟨by omega, by omega⟩
  have sizeSame : toUInt32 size = size := toUInt32_of_isUInt32 ⟨by omega, by omega⟩
  simp only [splitSector, sectorSize, offsetInner, remainInner, sizeSame, operateCount]
  congr 1
  split
  · rw [toInt32_of_isInt32 ⟨by omega, by omega⟩]
    omega
  · rw [toInt32_of_isInt32 ⟨by omega, by omega⟩]
    omega

theorem next (sweep : Sweep start left (remaining + 1) i offset size) :
    Sweep start left remaining (i + 1) (offset + operateCount start left i offset size)
      (size - operateCount start left i offset size) := by
  obtain ⟨startNonneg, sizeNonneg, offsetNonneg, endLt, addressable, here, _, covered, needed⟩ := sweep
  have inside := here (by omega)
  unfold operateCount innerOffset
  -- The last sector takes all that is left, every other one is filled to its end.
  rcases Nat.eq_zero_or_pos remaining with rfl | more
  · constructor <;> omega
  · have beyond := needed (by omega)
    constructor <;> omega

theorem no_wrap (sweep : Sweep start left (remaining + 1) i offset size) :
    toInt32 (offset + operateCount start left i offset size) =
        offset + operateCount start left i offset size ∧
      toInt32 (size - operateCount start left i offset size) =
        size - operateCount start left i offset size := by
  have count := sweep.count_bounds
  have bound := sweep.end_lt
  have sizeNonneg := sweep.size_nonneg
  have offsetNonneg := sweep.offset_nonneg
  constructor <;> apply toInt32_of_isInt32 <;> constructor <;> omega

end Sweep

/-- The request as the three entry points accept it: inside the sectors, whose byte
positions an `unsigned int` can hold. -/
structure InSectors (statics : Statics) (offset size : Int) : Prop where
  start_nonneg : 0 ≤ statics.startSector
  start_le_end : statics.startSector ≤ statics.endSector
  end_lt : statics.endSector < 2 ^ 23
  offset_nonneg : 0 ≤ offset
  size_nonneg : 0 ≤ size
  inside : offset + size ≤ (statics.endSector - statics.startSector + 1) * 512
  capacity_lt : (statics.endSector - statics.startSector + 1) * 512 < 2 ^ 31

namespace InSectors

variable {statics : Statics} {offset size : Int}

theorem valid (request : InSectors statics offset size) :
    isParameterValid statics offset size = true := by
  obtain ⟨_, _, _, _, _, inside, capacity⟩ := request
  unfold isParameterValid sectorSize
  have sum : toInt32 (offset + size) = offset + size := toInt32_of_isInt32 ⟨by omega, by omega⟩
  have right : toUInt32 ((statics.endSector - statics.startSector + 1) * 512) =
      (statics.endSector - statics.startSector + 1) * 512 := toUInt32_of_isUInt32 ⟨by omega, by omega⟩
  have whole : toInt32 ((statics.endSector - statics.startSector + 1) * 512) =
      (statics.endSector - statics.startSector + 1) * 512 := toInt32_of_isInt32 ⟨by omega, by omega⟩
  simp only [sum, right, whole]
  simp
  omega

/-- `sector_left` and `sector_count` start a sweep.  A request of size 0 touches no
sector or the one it lies in. -/
theorem sweep (request : InSectors statics offset size) :
    Sweep statics.startSector (sectorSpan statics offset size).1 (sectorSpan statics offset size).2 0
      offset size := by
  obtain ⟨startNonneg, startLeEnd, endLt, offsetNonneg, sizeNonneg, inside, capacity⟩ := request
  have left : toUInt32 (statics.startSector + offset.tdiv 512) = statics.startSector + offset / 512 := by
    rw [tdiv_of_nonneg offsetNonneg]
    exact toUInt32_of_isUInt32 ⟨by omega, by omega⟩
  have sum : toInt32 (offset + size) = offset + size := toInt32_of_isInt32 ⟨by omega, by omega⟩
  have last : toInt32 (offset + size - 1) = offset + size - 1 := toInt32_of_isInt32 ⟨by omega, by omega⟩
  rcases Int.le_iff_eq_or_lt.mp (show 0 ≤ offset + size by omega) with empty | positive
  · -- The empty request at 0: `(0 - 1) / 512` is 0 in C.
    have zeros : offset = 0 ∧ size = 0 := by omega
    obtain ⟨rfl, rfl⟩ := zeros
    have right : toUInt32 (statics.startSector + (-1 : Int).tdiv 512) = statics.startSector := by
      rw [tdiv_neg_one (by omega), Int.add_zero]
      exact toUInt32_of_isUInt32 ⟨by omega, by omega⟩
    have one : toUInt32 (statics.startSector - statics.startSector + 1) = 1 :=
      (congrArg toUInt32 (by omega)).trans (toUInt32_of_isUInt32 ⟨by omega, by omega⟩)
    have leftZero : toUInt32 (statics.startSector + (0 : Int).tdiv 512) = statics.startSector := by
      simpa using left
    have spanned : sectorSpan statics 0 0 = (statics.startSector, 1) := by
      unfold sectorSpan sectorSize
      have minusOne : toInt32 (toInt32 0 - 1) = -1 := by decide
      simp only [leftZero, Int.add_zero, minusOne, right, one]
      rfl
    rw [spanned]
    constructor <;> omega
  · have right : toUInt32 (statics.startSector + (offset + size - 1).tdiv 512) =
        statics.startSector + (offset + size - 1) / 512 := by
      rw [tdiv_of_nonneg (by omega)]
      exact toUInt32_of_isUInt32 ⟨by omega, by omega⟩
    have count : toUInt32 (statics.startSector + (offset + size - 1) / 512 -
        (statics.startSector + offset / 512) + 1) = (offset + size - 1) / 512 - offset / 512 + 1 :=
      (congrArg toUInt32 (by omega)).trans (toUInt32_of_isUInt32 ⟨by omega, by omega⟩)
    have spanned : sectorSpan statics offset size =
        (statics.startSector + offset / 512, ((offset + size - 1) / 512 - offset / 512 + 1).toNat) := by
      unfold sectorSpan sectorSize
      simp only [sum, last, left, right, count]
    rw [spanned]
    constructor <;> omega

end InSectors

/-! ## The steps of an iteration -/

/-- The byte position that the source computes for sector `left + i`. -/
def sectorAddress (left : Int) (i : Nat) : Nat := (toUInt32 ((left + i) * 512)).toNat

/-- The buffer after a whole read of the window at `address`. -/
def loadedBuffer (device : Device) (address : Nat) : Buffer :=
  Buffer.zero.fill (device.transfer address bufferSize)

theorem loadedBuffer_bytes (device : Device) (address : Nat) :
    (loadedBuffer device address).bytes = load 2048 0 (window device.bytes address 2048) := by
  simp only [loadedBuffer, Buffer.fill, Buffer.zero, load, Device.transfer, bufferSize]

@[simp] theorem splitSector_withBuffer (statics : Statics) (buffer : Buffer) (left : Int) (i : Nat)
    (offset size : Int) :
    splitSector (statics.withBuffer buffer) left i offset size = splitSector statics left i offset size := by
  unfold splitSector
  rw [Statics.withBuffer_startSector]

section
variable {statics : Statics} {left : Int} {i : Nat} {device : Device} {position : Nat}
  {state : Faulty World}

theorem delivers_seekSector (opened : statics.fd = descriptor)
    (here : state.world = (device, some position)) :
    Delivers faultyAnswer (seekSector statics left i) state fun found after =>
      (0 ≤ found ∧ Passed 1 state after ∧ after.world = (device, some (sectorAddress left i))) ∨
        (found < 0 ∧ Refused 1 state after ∧ after.world = (device, some position)) := by
  have nonneg := (toUInt32_isUInt32 ((left + i) * sectorSize)).1
  unfold seekSector
  rw [opened]
  apply (delivers_lseek here nonneg).mono
  rintro found after (⟨rfl, passed, there⟩ | ⟨rfl, refused, there⟩)
  · exact .inl ⟨nonneg, passed, there⟩
  · exact .inr ⟨by decide, refused, there⟩

theorem delivers_loadSector (opened : statics.fd = descriptor)
    (here : state.world = (device, some position)) :
    Delivers faultyAnswer (loadSector statics left i) state fun result after =>
      ∃ buffer position', result.2 = statics.withBuffer buffer ∧ after.world = (device, some position') ∧
        ((result.1 = true ∧ Passed 2 state after ∧
            buffer = loadedBuffer device (sectorAddress left i)) ∨
          (result.1 = false ∧ Refused 2 state after)) := by
  unfold loadSector
  apply (delivers_seekSector ((statics.withBuffer_fd _).trans opened) here).bind
  rintro found between (⟨nonneg, passed, there⟩ | ⟨negative, refused, there⟩)
  · rw [if_neg (by omega), Statics.withBuffer_fd, opened]
    apply (delivers_read there).bind
    rintro chunk after (⟨rfl, passed', position', there'⟩ | ⟨rfl, refused', there'⟩)
    · refine delivers_done.mpr ⟨_, position', Statics.withBuffer_withBuffer _ _ _, there', ?_⟩
      exact .inl ⟨rfl, passed.trans passed', by rw [Statics.withBuffer_buffer, loadedBuffer]⟩
    · exact delivers_done.mpr ⟨_, _, rfl, there', .inr ⟨rfl, passed.refused refused'⟩⟩
  · rw [if_pos negative]
    exact delivers_done.mpr ⟨_, _, rfl, there, .inr ⟨rfl, refused.mono (by omega)⟩⟩

theorem delivers_storeSector (opened : statics.fd = descriptor)
    (here : state.world = (device, some position)) (inPlace : device.medium ≠ .ubi) :
    Delivers faultyAnswer (storeSector statics left i) state fun stored after =>
      ∃ position', after.world.2 = some position' ∧
        ((stored = true ∧ Passed 2 state after ∧
            after.world.1 = device.patch (sectorAddress left i) statics.buffer.bytes) ∨
          (stored = false ∧ Refused 2 state after ∧ after.world.1 = device)) := by
  unfold storeSector
  apply (delivers_seekSector opened here).bind
  rintro found between (⟨nonneg, passed, there⟩ | ⟨negative, refused, there⟩)
  · rw [if_neg (by omega), opened]
    apply (delivers_write there statics.buffer.bytes).bind
    rw [Device.store_inPlace _ _ inPlace]
    rintro written after (⟨rfl, passed', position', there'⟩ | ⟨rfl, refused', there'⟩)
    · refine delivers_done.mpr ⟨position', congrArg Prod.snd there', .inl ⟨?_, ?_, ?_⟩⟩
      · simp
      · exact passed.trans passed'
      · exact congrArg Prod.fst there'
    · exact delivers_done.mpr ⟨_, congrArg Prod.snd there',
        .inr ⟨rfl, passed.refused refused', congrArg Prod.fst there'⟩⟩
  · rw [if_pos negative]
    exact delivers_done.mpr ⟨_, congrArg Prod.snd there,
      .inr ⟨rfl, refused.mono (by omega), congrArg Prod.fst there⟩⟩

end

/-! ## The erase in between -/

def Device.afterErase (device : Device) (erase : Bool) : Device :=
  if erase then (device.erase 0 eraseLength).2 else device

@[simp] theorem Device.afterErase_medium (device : Device) (erase : Bool) :
    (device.afterErase erase).medium = device.medium := by
  unfold Device.afterErase Device.erase
  split
  · split <;> rfl
  · rfl

/-- `MEMERASE` is not issued, or does nothing because the device is no flash or too
small for it. -/
def Unerased (erase : Bool) (device : Device) : Prop :=
  erase = true → device.medium ≠ .nor ∨ device.bytes.length < eraseLength

theorem Unerased.afterErase {erase : Bool} {device : Device} (unerased : Unerased erase device) :
    device.afterErase erase = device := by
  unfold Device.afterErase Device.erase
  split
  · rename_i issued
    rw [if_neg]
    rintro ⟨nor, fits⟩
    rcases unerased issued with other | small
    · exact other nor
    · omega
  · rfl

theorem delivers_eraseBlock {erase : Bool} {statics : Statics} {device : Device} {position : Nat}
    {state : Faulty World} (opened : statics.fd = descriptor)
    (here : state.world = (device, some position)) :
    Delivers faultyAnswer (eraseBlock erase statics) state fun _ after =>
      Passed 0 state after ∧ after.world = (device.afterErase erase, some position) := by
  unfold eraseBlock
  cases erase with
  | false =>
    refine delivers_done.mpr ⟨Passed.refl state state.world, here⟩
  | true =>
    rw [if_pos rfl, opened]
    apply (delivers_memErase here 0 eraseLength).bind
    rintro _ after ⟨passed, there⟩
    exact delivers_done.mpr ⟨passed, there⟩

/-! ## The loops -/

/-- The loop takes its patches from `data`. -/
def PatchesFrom (patch : (pos count : Int) → Except Fault (List Byte)) (data : List Byte) : Prop :=
  ∀ pos count : Nat, pos + count ≤ data.length → patch pos count = .ok (window data pos count)

theorem patchesFrom_callerRead (buf : List Byte) : PatchesFrom (callerRead buf) buf := by
  intro pos count inside
  simp only [callerRead]
  rw [if_pos (by omega)]
  rfl

theorem patchesFrom_zeros (size : Nat) :
    PatchesFrom (fun _ count => .ok (List.replicate count.toNat 0)) (List.replicate size 0) := by
  intro pos count inside
  simp only [List.length_replicate] at inside
  simp only [window, List.drop_replicate, List.take_replicate, Int.toNat_natCast]
  rw [Nat.min_eq_left (by omega)]

/-- Byte `offset` of the request, as the device counts. -/
def devicePosition (start offset : Int) : Nat := (start * 512 + offset).toNat

theorem devicePosition_add {start offset : Int} (start_nonneg : 0 ≤ start) (offset_nonneg : 0 ≤ offset) (count : Nat) :
    devicePosition start (offset + count) = devicePosition start offset + count := by
  rw [devicePosition, devicePosition]
  omega

theorem Sweep.sectorAddress_add_inner {start left offset size : Int} {remaining i : Nat}
    (sweep : Sweep start left (remaining + 1) i offset size) :
    sectorAddress left i + (innerOffset start left i offset).toNat = devicePosition start offset := by
  have inner := sweep.inner_bounds
  have here := sweep.here (by omega)
  have addressable := sweep.addressable
  have startNonneg := sweep.start_nonneg
  have offsetNonneg := sweep.offset_nonneg
  have address : toUInt32 ((left + i) * 512) = (left + i) * 512 :=
    toUInt32_of_isUInt32 ⟨by omega, by omega⟩
  unfold sectorAddress devicePosition innerOffset at *
  rw [address]
  omega

/-- The sector of the first byte of a request. -/
def firstSector (statics : Statics) (offset : Int) : Nat := devicePosition statics.startSector offset / 512

/-- The sector of the last byte of a request. -/
def lastSector (statics : Statics) (offset size : Int) : Nat :=
  (devicePosition statics.startSector offset + size.toNat - 1) / 512

/-- The loop runs over the sectors of the request. -/
theorem InSectors.sectors {statics : Statics} {offset size : Int} (request : InSectors statics offset size)
    (sizePos : 0 < size) :
    (sectorSpan statics offset size).1 = firstSector statics offset ∧
      (sectorSpan statics offset size).2 = lastSector statics offset size - firstSector statics offset + 1 ∧
      firstSector statics offset ≤ lastSector statics offset size := by
  obtain ⟨startNonneg, _, offsetNonneg, _, _, here, exhausted, covered, needed⟩ := request.sweep
  generalize (sectorSpan statics offset size).1 = left at *
  generalize (sectorSpan statics offset size).2 = count at *
  have some : count ≠ 0 := fun none => by have := exhausted none; omega
  have inside := here some
  unfold firstSector lastSector devicePosition
  rcases Nat.lt_or_ge count 2 with one | more
  · refine ⟨?_, ?_, ?_⟩ <;> omega
  · have beyond := needed more
    refine ⟨?_, ?_, ?_⟩ <;> omega

section
variable {erase : Bool} {patch : (pos count : Int) → Except Fault (List Byte)} {data : List Byte}
  {left : Int}

/-- What one iteration writes: the window as it was read, with the patch in it. -/
def patchedWindow (device : Device) (address inner : Nat) (data : List Byte) : List Byte :=
  overlay (load 2048 0 (window device.bytes address 2048)) inner data

/-- One iteration over `count` bytes at `inner` of the window. -/
theorem delivers_updateSector {i : Nat} {statics : Statics} {offset size pos : Int} {chunk : List Byte}
    {inner count : Nat} {device : Device} {position : Nat} {state : Faulty World}
    (split : splitSector statics left i offset size = ((inner : Int), (count : Int)))
    (bound : inner + count ≤ 2048)
    (patches : patch pos count = .ok chunk) (opened : statics.fd = descriptor)
    (inPlace : device.medium ≠ .ubi) (here : state.world = (device, some position)) :
    Delivers faultyAnswer (updateSector erase patch left i statics offset size pos) state
      fun result after => ∃ (buffer : Buffer) (position' : Nat),
        result.2 = statics.withBuffer buffer ∧ after.world.2 = some position' ∧
          ((result.1 = true ∧ Passed 4 state after ∧
              after.world.1 = (device.afterErase erase).patch (sectorAddress left i)
                (patchedWindow device (sectorAddress left i) inner chunk)) ∨
            (result.1 = false ∧ Refused 4 state after ∧
              (after.world.1 = device ∨ after.world.1 = device.afterErase erase))) := by
  unfold updateSector
  apply (delivers_loadSector opened here).bind
  rintro ⟨loaded, statics'⟩ between
    ⟨buffer, position, rfl, there, ⟨rfl, passed, rfl⟩ | ⟨rfl, refused⟩⟩
  · simp only [Bool.not_true, Bool.false_eq_true, if_false, splitSector_withBuffer, split,
      Statics.withBuffer_buffer, Statics.withBuffer_withBuffer]
    apply (delivers_eraseBlock (by simpa using opened) there).bind
    rintro _ between ⟨passed', there⟩
    have inRange : Buffer.InRange inner count := Buffer.inRange_of_le (by omega) (by omega) (by omega)
    obtain ⟨buffer, copied, bytes⟩ := (loadedBuffer device (sectorAddress left i)).copyIn_inRange
      inRange chunk
    rw [patches, copied, attempt_ok, done_bind]
    apply (delivers_storeSector (by simpa using opened) there (by simpa using inPlace)).bind
    rintro stored after ⟨position', opened', outcome⟩
    rw [pure_eq, delivers_done]
    refine ⟨buffer, position', rfl, opened', ?_⟩
    rcases outcome with ⟨rfl, passed'', written⟩ | ⟨rfl, refused, unchanged⟩
    · refine .inl ⟨rfl, (passed.trans passed').trans passed'', ?_⟩
      simp only [written, Statics.withBuffer_buffer, bytes, loadedBuffer_bytes, patchedWindow,
        Int.toNat_natCast]
    · exact .inr ⟨rfl, (passed.trans passed').refused refused, .inr unchanged⟩
  · simp only [Bool.not_false, if_true]
    rw [pure_eq, delivers_done]
    exact ⟨buffer, position, rfl, congrArg Prod.snd there,
      .inr ⟨rfl, refused.mono (by omega), .inl (congrArg Prod.fst there)⟩⟩

/-- Without an erase, an iteration writes the patch and nothing else. -/
theorem patch_patchedWindow (device : Device) (address inner : Nat) {chunk : List Byte}
    (bound : inner + chunk.length ≤ 2048) :
    device.patch address (patchedWindow device address inner chunk) =
      device.patch (address + inner) chunk := by
  rw [patchedWindow, Device.patch_window _ _ _ bound]

theorem Sweep.patch_chunk {start offset size : Int} {remaining i : Nat}
    (sweep : Sweep start left (remaining + 1) i offset size) (device : Device) (chunk : List Byte)
    (short : (chunk.length : Int) ≤ operateCount start left i offset size) :
    device.patch (sectorAddress left i)
        (patchedWindow device (sectorAddress left i) (innerOffset start left i offset).toNat chunk) =
      device.patch (devicePosition start offset) chunk := by
  have inner := sweep.inner_bounds
  have count := sweep.count_bounds
  rw [patch_patchedWindow _ _ _ (by omega), sweep.sectorAddress_add_inner]

/-- A loop that never erases writes a prefix of the request, all of it unless a call
fails. -/
theorem delivers_updateSectors (patches : PatchesFrom patch data) {remaining i : Nat}
    {statics : Statics} {offset size : Int} {pos : Nat} {device : Device} {position : Nat}
    {state : Faulty World} (sweep : Sweep statics.startSector left remaining i offset size)
    (opened : statics.fd = descriptor) (inPlace : device.medium ≠ .ubi)
    (unerased : Unerased erase device) (supply : (pos : Int) + size ≤ data.length)
    (here : state.world = (device, some position)) :
    Delivers faultyAnswer (updateSectors erase patch left remaining i statics offset size pos) state
      fun result after => ∃ (moved : Nat) (buffer : Buffer) (position' : Nat),
        result.2 = statics.withBuffer buffer ∧ after.world.2 = some position' ∧
          (moved : Int) ≤ size ∧
          after.world.1 =
            device.patch (devicePosition statics.startSector offset) (window data pos moved) ∧
          ((result.1 = 0 ∧ Passed (4 * remaining) state after ∧ moved = size) ∨
            (result.1 = -1 ∧ Refused (4 * remaining) state after)) := by
  induction remaining generalizing i statics offset size pos device position state with
  | zero =>
    have done := sweep.exhausted rfl
    rw [updateSectors, pure_eq, delivers_done]
    exact ⟨0, statics.buffer, position, by rw [Statics.withBuffer_self], congrArg Prod.snd here, by omega,
      by simp [window, here], .inl ⟨rfl, Passed.refl state state.world, by omega⟩⟩
  | succ remaining inductionHypothesis =>
    have inner := sweep.inner_bounds
    have count := sweep.count_bounds
    have further := sweep.next
    have wraps := sweep.no_wrap
    have split := sweep.split
    have whole := sweep.patch_chunk device
    have startNonneg := sweep.start_nonneg
    have offsetNonneg := sweep.offset_nonneg
    obtain ⟨innerNat, innerEq⟩ := Int.eq_ofNat_of_zero_le inner.1
    obtain ⟨taken, moves⟩ := Int.eq_ofNat_of_zero_le count.1
    have chunkLength : (window data pos taken).length = taken := length_window_of_le (by omega)
    rw [innerEq, moves] at count split
    rw [updateSectors]
    apply (delivers_updateSector split (by omega) (patches pos taken (by omega)) opened inPlace
      here).bind
    rintro ⟨updated, statics'⟩ between
      ⟨buffer, position, rfl, opened', ⟨rfl, passed, written⟩ | ⟨rfl, refused, unchanged⟩⟩
    · simp only [Bool.not_true, Bool.false_eq_true, if_false, splitSector_withBuffer, split]
      rw [moves] at further wraps whole
      rw [innerEq, Int.toNat_natCast] at whole
      rw [unerased.afterErase, whole _ (by omega)] at written
      have there : between.world = (device.patch (devicePosition statics.startSector offset)
          (window data pos taken), some position) := Prod.ext written opened'
      rw [wraps.1, wraps.2, show (pos : Int) + taken = (pos + taken : Nat) by omega]
      apply (inductionHypothesis (by simpa using further) (by simpa using opened)
        (by simpa using inPlace) (by simpa [Unerased] using unerased) (by omega) there).mono
      rintro ⟨ret, statics'⟩ after ⟨moved, buffer', position', rfl, opened'', bound, written', outcome⟩
      refine ⟨taken + moved, buffer', position', by simp, opened'', by omega, ?_, ?_⟩
      · -- the two runs are adjacent on the device and in the data
        have adjacent : devicePosition statics.startSector (offset + taken) =
            devicePosition statics.startSector offset + (window data pos taken).length := by
          rw [chunkLength, devicePosition_add startNonneg offsetNonneg]
        rw [written', Statics.withBuffer_startSector, adjacent, Device.patch_append, window_append]
      · rw [show 4 * (remaining + 1) = 4 + 4 * remaining by omega]
        rcases outcome with ⟨done, passed', all⟩ | ⟨failedHere, refused⟩
        · exact .inl ⟨done, passed.trans passed', by omega⟩
        · exact .inr ⟨failedHere, passed.refused refused⟩
    · simp only [Bool.not_false, if_true]
      rw [pure_eq, delivers_done]
      rw [unerased.afterErase, or_self] at unchanged
      exact ⟨0, buffer, position, rfl, opened', by omega, by simpa [window] using unchanged,
        .inr ⟨rfl, refused.mono (by omega)⟩⟩

end

section
variable {left : Int}

theorem delivers_readSector {remaining i : Nat} {statics : Statics} {offset size : Int} {pos : Nat}
    {buf : List Byte} {device : Device} {position : Nat} {state : Faulty World}
    (sweep : Sweep statics.startSector left (remaining + 1) i offset size)
    (opened : statics.fd = descriptor) (room : (pos : Int) + size ≤ buf.length)
    (inside : (devicePosition statics.startSector offset : Int) + size ≤ device.bytes.length)
    (here : state.world = (device, some position)) :
    Delivers faultyAnswer (readSector left i statics offset size pos buf) state
      fun result after => ∃ (buffer : Buffer) (position' : Nat),
        result.2.2 = statics.withBuffer buffer ∧ after.world = (device, some position') ∧
          ((result.1 = true ∧ Passed 2 state after ∧
              result.2.1 = overlay buf pos (window device.bytes (devicePosition statics.startSector offset)
                (operateCount statics.startSector left i offset size).toNat)) ∨
            (result.1 = false ∧ Refused 2 state after)) := by
  have inner := sweep.inner_bounds
  have count := sweep.count_bounds
  have address := sweep.sectorAddress_add_inner
  have split := sweep.split
  obtain ⟨innerNat, innerEq⟩ := Int.eq_ofNat_of_zero_le inner.1
  obtain ⟨countNat, countEq⟩ := Int.eq_ofNat_of_zero_le count.1
  rw [innerEq] at address
  rw [innerEq, countEq] at count split
  rw [countEq]
  unfold readSector
  apply (delivers_loadSector opened here).bind
  rintro ⟨loaded, statics'⟩ after
    ⟨buffer, position, rfl, there, ⟨rfl, passed, rfl⟩ | ⟨rfl, refused⟩⟩
  · simp only [Bool.not_true, Bool.false_eq_true, if_false, splitSector_withBuffer, split,
      Statics.withBuffer_buffer]
    have inRange : Buffer.InRange innerNat countNat := Buffer.inRange_of_le (by omega) (by omega) (by omega)
    -- what is copied out of the buffer stands on the device at the position of the request
    have copied : window (loadedBuffer device (sectorAddress left i)).bytes innerNat countNat =
        window device.bytes (devicePosition statics.startSector offset) countNat := by
      rw [loadedBuffer_bytes, window_load_window _ (by omega) (by omega), ← address, Int.toNat_natCast]
    have length : (window device.bytes (devicePosition statics.startSector offset) countNat).length =
        countNat := length_window_of_le (by omega)
    rw [Buffer.copyOut_inRange _ inRange, attempt_ok, done_bind, Int.toNat_natCast, Int.toNat_natCast,
      copied, callerWrite_inside _ (by omega), attempt_ok, done_bind, pure_eq, delivers_done]
    exact ⟨_, position, rfl, there, .inl ⟨rfl, passed, rfl⟩⟩
  · simp only [Bool.not_false, if_true]
    rw [pure_eq, delivers_done]
    exact ⟨buffer, position, rfl, there, .inr ⟨rfl, refused⟩⟩

/-- The read loop copies the request out and leaves the device alone. -/
theorem delivers_readSectors {remaining i : Nat} {statics : Statics} {offset size : Int} {pos : Nat}
    {buf : List Byte} {device : Device} {position : Nat} {state : Faulty World}
    (sweep : Sweep statics.startSector left remaining i offset size)
    (opened : statics.fd = descriptor) (room : (pos : Int) + size ≤ buf.length)
    (inside : (devicePosition statics.startSector offset : Int) + size ≤ device.bytes.length)
    (here : state.world = (device, some position)) :
    Delivers faultyAnswer (readSectors left remaining i statics offset size pos buf) state
      fun result after => ∃ (buffer : Buffer) (position' : Nat),
        result.2.2 = statics.withBuffer buffer ∧ after.world = (device, some position') ∧
          ((result.1 = 0 ∧ Passed (2 * remaining) state after ∧
              result.2.1 = overlay buf pos
                (window device.bytes (devicePosition statics.startSector offset) size.toNat)) ∨
            (result.1 = -1 ∧ Refused (2 * remaining) state after)) := by
  induction remaining generalizing i statics offset size pos buf position state with
  | zero =>
    have done := sweep.exhausted rfl
    subst done
    rw [readSectors, pure_eq, delivers_done]
    exact ⟨statics.buffer, position, by rw [Statics.withBuffer_self], here,
      .inl ⟨rfl, Passed.refl state state.world, by simp [window]⟩⟩
  | succ remaining inductionHypothesis =>
    have count := sweep.count_bounds
    have further := sweep.next
    have wraps := sweep.no_wrap
    have split := sweep.split
    have startNonneg := sweep.start_nonneg
    have offsetNonneg := sweep.offset_nonneg
    have firstPart := delivers_readSector sweep opened room inside here
    obtain ⟨taken, moves⟩ := Int.eq_ofNat_of_zero_le count.1
    rw [moves] at count further wraps split firstPart
    have adjacent := devicePosition_add startNonneg offsetNonneg taken
    have chunkLength : (window device.bytes (devicePosition statics.startSector offset) taken).length =
        taken := length_window_of_le (by omega)
    rw [readSectors]
    apply firstPart.bind
    rintro ⟨copied, buf', statics'⟩ between
      ⟨buffer, position, rfl, there, ⟨rfl, passed, rfl⟩ | ⟨rfl, refused⟩⟩
    -- the sector was read and the loop goes on behind it, or the loop ends here
    · simp only [Bool.not_true, Bool.false_eq_true, if_false, splitSector_withBuffer, split]
      rw [wraps.1, wraps.2, Int.toNat_natCast, show (pos : Int) + taken = (pos + taken : Nat) by omega]
      apply (inductionHypothesis (by simpa using further) (by simpa using opened)
        (by rw [length_overlay]; omega) (by rw [Statics.withBuffer_startSector, adjacent]; omega)
        there).mono
      rintro ⟨ret, buf', statics'⟩ after ⟨buffer', position', rfl, there', outcome⟩
      refine ⟨buffer', position', by simp, there', ?_⟩
      rw [show 2 * (remaining + 1) = 2 + 2 * remaining by omega]
      rcases outcome with ⟨done, passed', copied⟩ | ⟨failedHere, refused⟩
      · refine .inl ⟨done, passed.trans passed', ?_⟩
        have step := overlay_append buf pos
          (window device.bytes (devicePosition statics.startSector offset) taken)
          (window device.bytes (devicePosition statics.startSector offset + taken)
            (size - taken).toNat)
        rw [chunkLength, window_append] at step
        rw [copied, Statics.withBuffer_startSector, adjacent, step,
          show taken + (size - taken).toNat = size.toNat by omega]
      · exact .inr ⟨failedHere, passed.refused refused⟩
    · simp only [Bool.not_false, if_true]
      rw [pure_eq, delivers_done]
      exact ⟨buffer, position, rfl, there, .inr ⟨rfl, refused.mono (by omega)⟩⟩

end

end KernelLearning.Veeprom
