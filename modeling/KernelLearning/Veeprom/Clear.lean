import KernelLearning.Veeprom.Nand
import KernelLearning.Veeprom.Nor

/-!
# Clearing a range

`veeprom_clear` has three paths: zeros over the bytes of an eMMC, zeros programmed
into NOR flash without an erase, and a heap block handed to `veeprom_write`.  Each
is compared with a write of zeros.
-/

namespace KernelLearning.Veeprom

open KernelLearning.Bytes KernelLearning.CSemantics KernelLearning.Interaction
open KernelLearning.Interaction.Program KernelLearning.Interaction.Faulty

/-- Programming zeros stores zeros. -/
theorem combineAt_and_zeros (bytes : List Byte) (position count : Nat) :
    combineAt (· &&& ·) bytes position (List.replicate count 0) =
      overlay bytes position (List.replicate count 0) := by
  apply List.ext_getElem?
  intro index
  rw [overlay, getElem?_combineAt, getElem?_combineAt]
  by_cases inside : index - position < count
  · rw [List.getElem?_replicate_of_lt inside]
    simp
  · rw [List.getElem?_eq_none (by simpa using inside)]

/-- Where the range of a request starts on the device. -/
def rangeStart (host : Host) (statics : Statics) (offset : Int) : Nat :=
  if getBootMode host = .spinand then offset.toNat else devicePosition statics.startSector offset

/-- The device with zeros in the requested range. -/
def zeroed (host : Host) (statics : Statics) (bytes : List Byte) (offset size : Int) : List Byte :=
  overlay bytes (rangeStart host statics offset) (List.replicate size.toNat 0)

/-- The clear returns 0 with zeros in its range and everything else as it was, and so does
a write of zeros. -/
def ClearExact (host : Host) (statics : Statics) (world : World) (offset size : Int)
    (heap : List Byte) : Prop :=
  Delivers answer (veepromClear host statics offset size heap) world (fun result world' =>
      result.1 = 0 ∧ world'.1.bytes = zeroed host statics world.1.bytes offset size) ∧
    Delivers answer (veepromWrite host statics offset (List.replicate size.toNat 0) size) world
      fun result world' =>
        result.1 = 0 ∧ world'.1.bytes = zeroed host statics world.1.bytes offset size

/-- The device of the boot mode is open, or can be opened, and the request is in range. -/
def ClearReady (host : Host) (statics : Statics) (world : World) (offset size : Int) : Prop :=
  match getBootMode host with
  | .emmc => EmmcOpened host statics world ∧ InSectors statics offset size
  | .spinor => NorOpened host statics world ∧ InSectors statics offset size
  | .spinand => NandReady host statics world ∧ StandsAt statics world 0 ∧ Buffer.InRange offset size

/-- On NOR flash, the erase of the write of zeros must fail or lose nothing.  On NAND, the
heap block must hold at least a pointer and be zero from there on. -/
def ClearSafe (host : Host) (statics : Statics) (device : Device) (offset size : Int)
    (heap : List Byte) : Prop :=
  match getBootMode host with
  | .emmc => True
  | .spinor => device.bytes.length < eraseLength ∨
      LosesNothing device.bytes (List.replicate size.toNat 0) (devicePosition statics.startSector offset)
        (firstSector statics offset) (lastSector statics offset size)
  | .spinand => host.sizeofPointer ≤ heap.length ∧
      ∀ index, host.sizeofPointer ≤ index → index < heap.length → heap[index]? = some 0

section
variable {host : Host} {statics : Statics} {device : Device} {position : Nat} {offset size : Int}
  {heap : List Byte}

/-! ## Zeros written in place -/

theorem stored_zeros {world : World} {statics : Statics} {pattern : Nat → Bool}
    {result : Int × Statics} {calls : Nat} (notUbi : device.medium ≠ .ubi)
    (advanced : Advanced statics device offset (List.replicate size.toNat 0) calls
      ⟨(device, some position), never, false⟩ result ⟨world, pattern, false⟩) :
    result.1 = 0 ∧ world.1.bytes =
      overlay device.bytes (devicePosition statics.startSector offset) (List.replicate size.toNat 0) := by
  obtain ⟨moved, buffer, position', _, _, _, written, ⟨done, _, all⟩ | ⟨_, refused⟩⟩ := advanced
  · rw [all, List.take_length] at written
    refine ⟨done, (congrArg Device.bytes written).trans ?_⟩
    unfold Device.patch
    cases medium : device.medium with
    | block => rfl
    | nor => exact combineAt_and_zeros _ _ _
    | ubi => exact (notUbi medium).elim
  · exact (not_refused_never refused).elim

theorem clear_inPlace (mode : getBootMode host ≠ .spinand) (request : InSectors statics offset size)
    (opened : statics.fd = descriptor) (notUbi : device.medium ≠ .ubi) :
    Delivers answer (veepromClear host statics offset size heap) (device, some position)
      fun result world' => result.1 = 0 ∧
        world'.1.bytes = zeroed host statics device.bytes offset size := by
  apply (Delivers.of_never (delivers_veepromClear mode request opened notUbi rfl)).mono
  intro result world' advanced
  rw [zeroed, rangeStart, if_neg mode]
  exact stored_zeros notUbi advanced

theorem write_zeros_inPlace (mode : getBootMode host ≠ .spinand) (request : InSectors statics offset size)
    (opened : statics.fd = descriptor) (notUbi : device.medium ≠ .ubi)
    (unerased : Unerased (statics.bootmode == .spinor) device) :
    Delivers answer (veepromWrite host statics offset (List.replicate size.toNat 0) size)
      (device, some position) fun result world' => result.1 = 0 ∧
        world'.1.bytes = zeroed host statics device.bytes offset size := by
  have nonneg := request.size_nonneg
  have supply : size ≤ (List.replicate size.toNat (0 : Byte)).length := by
    rw [List.length_replicate]
    omega
  apply (Delivers.of_never (delivers_veepromWrite mode request opened notUbi unerased supply rfl)).mono
  intro result world' advanced
  rw [List.take_replicate, Nat.min_self] at advanced
  rw [zeroed, rangeStart, if_neg mode]
  exact stored_zeros notUbi advanced

/-! ## NOR flash -/

/-- On flash of 64 KiB and more, writing zeros is exact if and only if the erase loses
nothing. -/
theorem write_zeros_nor_iff (ready : NorOpened host statics (device, some position))
    (large : eraseLength ≤ device.bytes.length) (request : InSectors statics offset size)
    (sizePos : 0 < size) :
    (Delivers answer (veepromWrite host statics offset (List.replicate size.toNat 0) size)
      (device, some position) fun result world' => result.1 = 0 ∧
        world'.1.bytes = zeroed host statics device.bytes offset size) ↔
      LosesNothing device.bytes (List.replicate size.toNat 0) (devicePosition statics.startSector offset)
        (firstSector statics offset) (lastSector statics offset size) := by
  have supply : size ≤ (List.replicate size.toNat (0 : Byte)).length := by
    rw [List.length_replicate]
    omega
  have written := Delivers.of_never (delivers_veepromWrite_nor ready large request sizePos supply
    (show (⟨(device, some position), never, false⟩ : Faulty World).world = _ from rfl))
  rw [List.take_replicate, Nat.min_self] at written
  rw [← norBytes_eq_overlay_iff large fun p _ => by rw [combineAt_and_zeros], zeroed, rangeStart,
    if_neg ready.notNand]
  constructor
  · rintro ⟨result, world', finished, _, claimed⟩
    rcases written.of_run finished with ⟨_, actual⟩ | ⟨_, refused⟩
    · rw [← claimed, actual]
      rfl
    · exact (not_refused_never refused).elim
  · intro same
    apply written.mono
    rintro result world' (⟨done, actual⟩ | ⟨_, refused⟩)
    · exact ⟨done, (congrArg Device.bytes actual).trans same⟩
    · exact (not_refused_never refused).elim

/-! ## The heap block -/

theorem write_spinand {world : World} {buf : List Byte} (ready : NandReady host statics world)
    (stands : StandsAt statics world 0) (inRange : Buffer.InRange offset size) (supply : size ≤ buf.length) :
    Delivers answer (veepromWrite host statics offset buf size) world fun result world' =>
      result.1 = 0 ∧ world'.1.bytes = overlay world.1.bytes offset.toNat (buf.take size.toNat) := by
  obtain ⟨device, descriptorOffset⟩ := world
  apply (Delivers.of_never (delivers_veepromWrite_spinand ready.mode ready.path ready.ubi stands inRange
    supply)).mono
  rintro result world' (⟨refused, _⟩ | ⟨_, done, _, ⟨refused, _⟩ | ⟨_, written⟩⟩)
  · exact absurd refused Bool.false_ne_true
  · exact absurd refused Bool.false_ne_true
  · rw [show never 0 = false from rfl, nandLoaded_zero ready.image] at written
    exact ⟨done, congrArg (fun world => world.1.bytes) written⟩

/-- Clearing writes what `memset` leaves of the heap block. -/
theorem veepromClear_spinand (mode : getBootMode host = .spinand) :
    veepromClear host statics offset size heap =
      if host.sizeofPointer ≤ heap.length then
        veepromWrite host statics offset
          (List.replicate host.sizeofPointer 0 ++ heap.drop host.sizeofPointer) size
      else .stuck .heapBlock := by
  unfold veepromClear clearHeap
  rw [if_pos mode]
  split <;> rfl

theorem cleared_block_eq_zeros_iff {pointer : Nat} (fits : pointer ≤ heap.length) :
    List.replicate pointer 0 ++ heap.drop pointer = List.replicate heap.length 0 ↔
      ∀ index, pointer ≤ index → index < heap.length → heap[index]? = some 0 := by
  constructor
  · intro zeros index after inside
    have here := congrArg (·[index]?) zeros
    simp only [List.getElem?_append_right (show (List.replicate pointer (0 : Byte)).length ≤ index by simpa),
      List.getElem?_drop, List.length_replicate, List.getElem?_replicate_of_lt inside] at here
    rwa [show pointer + (index - pointer) = index by omega] at here
  · intro zero
    apply List.ext_getElem?
    intro index
    by_cases before : index < pointer
    · rw [List.getElem?_append_left (by simpa), List.getElem?_replicate_of_lt before,
        List.getElem?_replicate_of_lt (by omega)]
    rw [List.getElem?_append_right (by simpa using before), List.getElem?_drop, List.length_replicate,
      show pointer + (index - pointer) = index by omega]
    by_cases inside : index < heap.length
    · rw [zero index (by omega) inside, List.getElem?_replicate_of_lt inside]
    · rw [List.getElem?_eq_none (by omega), List.getElem?_eq_none (by simpa using inside)]

theorem clear_spinand_iff {world : World} (ready : NandReady host statics world)
    (stands : StandsAt statics world 0) (inRange : Buffer.InRange offset size)
    (block : heap.length = size.toNat) :
    (Delivers answer (veepromClear host statics offset size heap) world fun result world' =>
        result.1 = 0 ∧ world'.1.bytes = zeroed host statics world.1.bytes offset size) ↔
      host.sizeofPointer ≤ heap.length ∧
        ∀ index, host.sizeofPointer ≤ index → index < heap.length → heap[index]? = some 0 := by
  have ⟨offsetNonneg, sizeNonneg, inside⟩ := inRange
  have image := ready.image
  rw [veepromClear_spinand ready.mode, zeroed, rangeStart, if_pos ready.mode]
  by_cases fits : host.sizeofPointer ≤ heap.length
  · rw [if_pos fits, and_iff_right fits, ← cleared_block_eq_zeros_iff fits, block]
    generalize bufEq : List.replicate host.sizeofPointer 0 ++ heap.drop host.sizeofPointer = buf
    have length : buf.length = size.toNat := by
      rw [← bufEq, List.length_append, List.length_replicate, List.length_drop]
      omega
    have written := write_spinand ready stands inRange (show size ≤ buf.length by omega)
    rw [List.take_of_length_le (by omega)] at written
    constructor
    · rintro ⟨result, world', finished, _, claimed⟩
      have actual := (written.of_run finished).2
      exact overlay_injective (by rw [length, List.length_replicate])
        (by rw [image]; omega) (actual.symm.trans claimed)
    · rintro rfl
      exact written
  · rw [if_neg fits]
    constructor
    · rintro ⟨_, _, impossible, _⟩
      cases impossible
    · rintro ⟨fits', _⟩
      exact (fits fits').elim

/-! ## The three modes -/

/-- With all system calls succeeding, a clear is exact, and agrees with a write of zeros,
if and only if the mode's condition holds. -/
theorem clearExact_iff {world : World} (ready : ClearReady host statics world offset size)
    (size_pos : 0 < size) (block : heap.length = size.toNat) :
    ClearExact host statics world offset size heap ↔
      ClearSafe host statics world.1 offset size heap := by
  unfold ClearReady at ready
  unfold ClearSafe ClearExact
  cases mode : getBootMode host with
  | emmc =>
    simp only [mode] at ready
    obtain ⟨opened, request⟩ := ready
    obtain ⟨device, _⟩ := world
    obtain ⟨position, rfl⟩ := opened.positioned
    exact iff_of_true ⟨clear_inPlace opened.notNand request opened.opened opened.inPlace,
      write_zeros_inPlace opened.notNand request opened.opened opened.inPlace (opened.unerased device)⟩ trivial
  | spinor =>
    simp only [mode] at ready
    obtain ⟨opened, request⟩ := ready
    obtain ⟨device, _⟩ := world
    obtain ⟨position, rfl⟩ := opened.positioned
    have inPlace : device.medium ≠ .ubi := by
      intro ubi
      cases ubi.symm.trans opened.nor
    have cleared : Delivers answer (veepromClear host statics offset size heap) (device, some position) _ :=
      clear_inPlace opened.notNand request opened.opened inPlace
    by_cases small : device.bytes.length < eraseLength
    · exact iff_of_true ⟨cleared, write_zeros_inPlace opened.notNand request opened.opened inPlace
        fun _ => .inr small⟩ (.inl small)
    · rw [or_iff_right small, and_iff_right cleared,
        write_zeros_nor_iff opened (by omega) request size_pos]
  | spinand =>
    simp only [mode] at ready
    obtain ⟨nand, stands, inRange⟩ := ready
    rw [clear_spinand_iff nand stands inRange block]
    refine and_iff_left ?_
    apply (write_spinand nand stands inRange (by rw [List.length_replicate]; omega)).mono
    rintro result world' ⟨done, written⟩
    refine ⟨done, ?_⟩
    rw [written, zeroed, rangeStart, if_pos mode, List.take_replicate, Nat.min_self]

end

theorem clearExact_iff_pointerSized :
    ClearExact nandHost Statics.initial (nandDevice (List.replicate bufferSize 1), none) 0 8
      (List.replicate 8 1) := by
  have image : (List.replicate bufferSize (1 : Byte)).length = bufferSize := List.length_replicate
  generalize List.replicate bufferSize (1 : Byte) = bytes at image
  refine (clearExact_iff ?_ (by decide) (by decide)).mpr ⟨by decide, ?_⟩
  · exact ⟨nandReady_nandDevice image, .inl ⟨rfl, rfl⟩, by decide⟩
  · intro index after inside
    simp only [List.length_replicate, nandHost] at after inside
    omega

/-- On NAND, a clear of 16 bytes stores what `malloc` returned beyond the first eight. -/
theorem not_clearExact_dirtyBlock :
    ¬ ClearExact nandHost Statics.initial (nandDevice (List.replicate bufferSize 1), none) 0 16
      (List.replicate 16 1) := by
  have image : (List.replicate bufferSize (1 : Byte)).length = bufferSize := List.length_replicate
  generalize List.replicate bufferSize (1 : Byte) = bytes at image
  rintro ⟨cleared, _⟩
  have zero := (clear_spinand_iff (nandReady_nandDevice image) (.inl ⟨rfl, rfl⟩) (by decide)
    (by decide)).mp cleared
  exact absurd (zero.2 8 (by decide) (by decide)) (by decide)

end KernelLearning.Veeprom
