import KernelLearning.Veeprom.Emmc

/-!
# Writing to SPI-NOR flash

Each iteration of the write loop erases the first 64 KiB and programs back the 2048
bytes it read before.  `Remembered` is what the flash still holds between two
iterations, `norBytes` what a whole write leaves.
-/

namespace KernelLearning.Veeprom

open KernelLearning.Bytes KernelLearning.CSemantics KernelLearning.Interaction
open KernelLearning.Interaction.Program KernelLearning.Interaction.Faulty

/-! ## One iteration on the bytes -/

theorem erased_and (byte : Byte) : (0xff : Byte) &&& byte = byte := UInt8.neg_one_and

/-- The flash after the erase and the programming of one window. -/
def norIteration (bytes : List Byte) (address inner : Nat) (chunk : List Byte) : List Byte :=
  combineAt (· &&& ·) (overlay bytes 0 (List.replicate eraseLength 0xff)) address
    (overlay (load 2048 0 (window bytes address 2048)) inner chunk)

section
variable {bytes chunk : List Byte} {address inner p : Nat}

theorem length_norIteration : (norIteration bytes address inner chunk).length = bytes.length := by
  simp [norIteration]

theorem getElem?_norIteration_above (above : eraseLength ≤ p) (bound : inner + chunk.length ≤ 2048) :
    (norIteration bytes address inner chunk)[p]? =
      (combineAt (· &&& ·) bytes (address + inner) chunk)[p]? := by
  have outside : (overlay bytes 0 (List.replicate eraseLength 0xff))[p]? = bytes[p]? :=
    getElem?_overlay_outside (by rw [List.length_replicate]; omega)
  rw [norIteration, getElem?_combineAt_congr outside,
    combineAt_load_window (fun byte => UInt8.and_self) _ _ _ _ _ _ bound]

/-- Below 64 KiB nothing is left but what the window puts back. -/
theorem getElem?_norIteration_below (below : p < eraseLength) (large : eraseLength ≤ bytes.length)
    (bound : inner + chunk.length ≤ 2048) :
    (norIteration bytes address inner chunk)[p]? =
      if address + inner ≤ p ∧ p < address + inner + chunk.length then chunk[p - (address + inner)]?
      else if address ≤ p ∧ p < address + 2048 then bytes[p]?
      else some 0xff := by
  have erased : (overlay bytes 0 (List.replicate eraseLength 0xff))[p]? = some 0xff := by
    rw [getElem?_overlay_inside (by omega) (by rw [List.length_replicate]; omega) (by omega),
      List.getElem?_replicate_of_lt (by omega)]
  have length : (overlay (load 2048 0 (window bytes address 2048)) inner chunk).length = 2048 := by
    rw [length_overlay, length_load]
  by_cases inWindow : address ≤ p ∧ p < address + 2048
  · -- Programming over 0xFF stores the byte itself.
    have programmed : (norIteration bytes address inner chunk)[p]? =
        (overlay (load 2048 0 (window bytes address 2048)) inner chunk)[p - address]? := by
      obtain ⟨byte, saved⟩ : ∃ byte, (overlay (load 2048 0 (window bytes address 2048)) inner
          chunk)[p - address]? = some byte := ⟨_, List.getElem?_eq_getElem (by rw [length]; omega)⟩
      have stored : (norIteration bytes address inner chunk)[address + (p - address)]? =
          (overlay bytes 0 (List.replicate eraseLength 0xff))[address + (p - address)]?.map (· &&& byte) :=
        getElem?_combineAt_inside saved
      rw [show address + (p - address) = p by omega, erased] at stored
      rw [stored, saved]
      exact congrArg some (erased_and byte)
    rw [programmed]
    by_cases inChunk : address + inner ≤ p ∧ p < address + inner + chunk.length
    · rw [if_pos inChunk, getElem?_overlay_inside (by omega) (by omega) (by rw [length_load]; omega),
        show p - address - inner = p - (address + inner) by omega]
    · rw [if_neg inChunk, if_pos inWindow, getElem?_overlay_outside (by omega),
        getElem?_load_window 0 (by omega) (by omega), show address + (p - address) = p by omega]
  · have outside : (norIteration bytes address inner chunk)[p]? =
        (overlay bytes 0 (List.replicate eraseLength 0xff))[p]? :=
      getElem?_combineAt_outside (by rw [length]; omega)
    rw [outside, erased, if_neg (by omega), if_neg inWindow]

end

/-! ## What the flash holds -/

/-- The byte `p` keeps the value it should have when the sectors `first` to `written`
have been rewritten: the request's own bytes in the last of them, and the rest of the
window of 2048 bytes that was saved before the first erase. -/
def Kept (position length first written p : Nat) : Prop :=
  if position ≤ p ∧ p < position + length then p / 512 = written
  else written ≤ p / 512 ∧ p / 512 ≤ first + 3

instance (position length first written p : Nat) : Decidable (Kept position length first written p) := by
  unfold Kept
  infer_instance

/-- The flash after a write of `data` at `position`, into the sectors `first` to
`written`. -/
def norBytes (original data : List Byte) (position first written : Nat) : List Byte :=
  (combineAt (· &&& ·) original position data).mapIdx fun p programmed =>
    if p < eraseLength then
      if Kept position data.length first written p then (overlay original position data).getD p 0 else 0xff
    else programmed

theorem getElem?_norBytes_above {original data : List Byte} {position first written p : Nat}
    (above : eraseLength ≤ p) :
    (norBytes original data position first written)[p]? =
      (combineAt (· &&& ·) original position data)[p]? := by
  unfold norBytes
  rw [List.getElem?_mapIdx]
  simp only [if_neg (Nat.not_lt.mpr above)]
  exact Option.map_id'

theorem getElem?_norBytes_below {original data : List Byte} {position first written p : Nat}
    (below : p < eraseLength) (large : eraseLength ≤ original.length) :
    (norBytes original data position first written)[p]? =
      if Kept position data.length first written p then (overlay original position data)[p]?
      else some 0xff := by
  have inside : p < (overlay original position data).length := by rw [length_overlay]; omega
  unfold norBytes
  rw [List.getElem?_mapIdx, List.getElem?_eq_getElem (by rw [length_combineAt]; omega), Option.map_some]
  simp only [if_pos below]
  split
  · rw [List.getD_eq_getElem?_getD, List.getElem?_eq_getElem inside, Option.getD_some]
  · rfl

/-- Before sector `next` is rewritten: its window still holds the original bytes as far
as the window of sector `first` went, and `moved` bytes of the request are written. -/
structure Remembered (original data : List Byte) (position first next moved : Nat)
    (bytes : List Byte) : Prop where
  length_eq : bytes.length = original.length
  below : ∀ p < eraseLength, next ≤ p / 512 → p / 512 < next + 4 →
    bytes[p]? = if p / 512 ≤ first + 3 then original[p]? else some 0xff
  above : ∀ p, eraseLength ≤ p →
    bytes[p]? = (combineAt (· &&& ·) original position (data.take moved))[p]?
  rest : ∀ p, position ≤ p → next ≤ p / 512 → position + moved ≤ p

namespace Remembered

variable {original data bytes : List Byte} {position first next moved inner taken : Nat}

theorem untouched (original data : List Byte) (position first : Nat) :
    Remembered original data position first first 0 original where
  length_eq := rfl
  below p _ _ near := by rw [if_pos (by omega)]
  above p _ := by simp
  rest p after _ := after

theorem above_norIteration (remembered : Remembered original data position first next moved bytes)
    (bound : inner + taken ≤ 512) (inside : moved + taken ≤ data.length)
    (address : next * 512 + inner = position + moved) {p : Nat} (above : eraseLength ≤ p) :
    (norIteration bytes (next * 512) inner (window data moved taken))[p]? =
      (combineAt (· &&& ·) original position (data.take (moved + taken)))[p]? := by
  have chunk : (window data moved taken).length = taken := length_window_of_le inside
  have before : (data.take moved).length = moved := by rw [List.length_take]; omega
  have joined : data.take moved ++ window data moved taken = data.take (moved + taken) := by
    have whole := window_append data 0 moved taken
    simpa [window] using whole
  rw [getElem?_norIteration_above above (by omega), address,
    getElem?_combineAt_congr (remembered.above p above), ← joined, ← combineAt_append, before]

/-- An iteration hands the next one what it needs. -/
theorem next_norIteration (remembered : Remembered original data position first next moved bytes)
    (large : eraseLength ≤ original.length) (ordered : first ≤ next) (bound : inner + taken ≤ 512)
    (inside : moved + taken ≤ data.length) (address : next * 512 + inner = position + moved) :
    Remembered original data position first (next + 1) (moved + taken)
      (norIteration bytes (next * 512) inner (window data moved taken)) where
  length_eq := length_norIteration.trans remembered.length_eq
  below p small after near := by
    have chunk : (window data moved taken).length = taken := length_window_of_le inside
    have length := remembered.length_eq
    rw [getElem?_norIteration_below small (by omega) (by omega), if_neg (by omega)]
    by_cases inWindow : next * 512 ≤ p ∧ p < next * 512 + 2048
    · rw [if_pos inWindow, remembered.below p small (by omega) (by omega)]
    · rw [if_neg inWindow, if_neg (by omega)]
  above p above := remembered.above_norIteration bound inside address above
  rest p after beyond := by omega

/-- The last iteration leaves the result of the whole write. -/
theorem last_norIteration (remembered : Remembered original data position first next moved bytes)
    (large : eraseLength ≤ original.length) (ordered : first ≤ next) (bound : inner + taken ≤ 512)
    (all : moved + taken = data.length) (address : next * 512 + inner = position + moved) :
    norIteration bytes (next * 512) inner (window data moved taken) =
      norBytes original data position first next := by
  have chunk : (window data moved taken).length = taken := length_window_of_le (by omega)
  have length := remembered.length_eq
  apply List.ext_getElem?
  intro p
  -- beyond the erased block bytes are only programmed over; within it, the last window decides
  by_cases above : eraseLength ≤ p
  · rw [remembered.above_norIteration bound (by omega) address above, all, List.take_length,
      getElem?_norBytes_above above]
  rw [getElem?_norIteration_below (by omega) (by omega) (by omega),
    getElem?_norBytes_below (by omega) large]
  have rest := remembered.rest p
  by_cases inChunk : next * 512 + inner ≤ p ∧ p < next * 512 + inner + (window data moved taken).length
  · have kept : Kept position data.length first next p := by
      unfold Kept
      rw [if_pos (by omega)]
      omega
    rw [if_pos inChunk, if_pos kept, getElem?_overlay_inside (by omega) (by omega) (by omega),
      getElem?_window, if_pos (by omega)]
    congr 1
    omega
  rw [if_neg inChunk]
  by_cases inRequest : position ≤ p ∧ p < position + data.length
  · have lost : ¬ Kept position data.length first next p := by
      unfold Kept
      rw [if_pos inRequest]
      intro here
      have := rest inRequest.1 (by omega)
      omega
    -- a byte of an earlier iteration is erased by this one
    rw [if_neg lost, if_neg]
    intro inWindow
    have := rest inRequest.1 (by omega)
    omega
  · have kept : Kept position data.length first next p ↔ next ≤ p / 512 ∧ p / 512 ≤ first + 3 := by
      unfold Kept
      rw [if_neg inRequest]
    rw [getElem?_overlay_outside (by omega)]
    by_cases inWindow : next * 512 ≤ p ∧ p < next * 512 + 2048
    · rw [if_pos inWindow, remembered.below p (by omega) (by omega) (by omega)]
      by_cases near : p / 512 ≤ first + 3
      · rw [if_pos near, if_pos (kept.mpr (by omega))]
      · rw [if_neg near, if_neg fun held => near (kept.mp held).2]
    · rw [if_neg inWindow, if_neg fun held => by have := kept.mp held; omega]

end Remembered

/-! ## The write loop -/

theorem patch_afterErase_nor {device : Device} (nor : device.medium = .nor)
    (large : eraseLength ≤ device.bytes.length) (address inner : Nat) (chunk : List Byte) :
    (device.afterErase true).patch address (patchedWindow device address inner chunk) =
      device.holding (norIteration device.bytes address inner chunk) := by
  have erases : device.medium = .nor ∧ 0 + eraseLength ≤ device.bytes.length := ⟨nor, by omega⟩
  unfold Device.afterErase Device.erase
  rw [if_pos rfl, if_pos erases]
  simp only [Device.patch, Device.holding, norIteration, patchedWindow, nor]
  rfl

theorem patchesFrom_take {patch : (pos count : Int) → Except Fault (List Byte)} {data : List Byte}
    (patches : PatchesFrom patch data) {count : Nat} (inside : count ≤ data.length) :
    PatchesFrom patch (data.take count) := by
  intro pos taken bound
  rw [List.length_take] at bound
  rw [patches pos taken (by omega)]
  congr 1
  simp only [window, List.drop_take, List.take_take]
  rw [Nat.min_eq_left (by omega)]

section
variable {patch : (pos count : Int) → Except Fault (List Byte)} {data original : List Byte}
  {left offset size : Int} {remaining i : Nat} {statics : Statics} {device : Device}
  {base position first next moved inner taken : Nat} {state : Faulty World}

/-- The byte address of a sector inside a sweep. -/
theorem Sweep.sectorAddress_eq (sweep : Sweep statics.startSector left (remaining + 1) i offset size)
    (sector : left + i = next) : sectorAddress left i = next * 512 := by
  have addressable := sweep.addressable
  unfold sectorAddress
  rw [sector, toUInt32_of_isUInt32 ⟨by omega, by omega⟩]
  omega

theorem delivers_norSector (patches : PatchesFrom patch data)
    (sweep : Sweep statics.startSector left (remaining + 1) i offset size)
    (opened : statics.fd = descriptor) (nor : device.medium = .nor)
    (large : eraseLength ≤ device.bytes.length) (sector : left + i = next)
    (innerEq : innerOffset statics.startSector left i offset = inner)
    (takenEq : operateCount statics.startSector left i offset size = taken)
    (supply : (moved : Int) + size = data.length) (here : state.world = (device, some position)) :
    Delivers faultyAnswer (updateSector true patch left i statics offset size moved) state
      fun result after => ∃ (buffer : Buffer) (position' : Nat), result.2 = statics.withBuffer buffer ∧
        ((result.1 = true ∧ Passed 4 state after ∧ after.world = (device.holding
            (norIteration device.bytes (next * 512) inner (window data moved taken)), some position')) ∨
          (result.1 = false ∧ Refused 4 state after)) := by
  have count := sweep.count_bounds
  have split := sweep.split
  rw [innerEq, takenEq] at count split
  have inPlace : device.medium ≠ .ubi := by rw [nor]; decide
  apply (delivers_updateSector split (by omega) (patches moved taken (by omega)) opened inPlace here).mono
  rintro ⟨updated, statics'⟩ after
    ⟨buffer, position', same, opened', ⟨rfl, passed, written⟩ | ⟨rfl, refused, _⟩⟩
  · rw [sweep.sectorAddress_eq sector, patch_afterErase_nor nor large] at written
    exact ⟨buffer, position', same, .inl ⟨rfl, passed, Prod.ext written opened'⟩⟩
  · exact ⟨buffer, position', same, .inr ⟨rfl, refused⟩⟩

/-- A loop that returns 0 leaves what its last iteration left. -/
theorem delivers_norSectors (patches : PatchesFrom patch data)
    (sweep : Sweep statics.startSector left (remaining + 1) i offset size)
    (opened : statics.fd = descriptor) (nor : device.medium = .nor)
    (large : eraseLength ≤ original.length) (ordered : first ≤ next) (sector : left + i = next)
    (reached : devicePosition statics.startSector offset = base + moved)
    (supply : (moved : Int) + size = data.length)
    (remembered : Remembered original data base first next moved device.bytes)
    (here : state.world = (device, some position)) :
    Delivers faultyAnswer (updateSectors true patch left (remaining + 1) i statics offset size moved) state
      fun result after =>
        (result.1 = 0 ∧
            after.world.1 = device.holding (norBytes original data base first (next + remaining))) ∨
          (result.1 = -1 ∧ Refused (4 * (remaining + 1)) state after) := by
  -- the induction is on the sectors that are left; what the loop has lost so far is in `remembered`
  induction remaining generalizing i statics offset size device position next moved state with
  | zero =>
    have inner := sweep.inner_bounds
    have count := sweep.count_bounds
    have exhausted := sweep.next.exhausted rfl
    have address := sweep.sectorAddress_add_inner
    rw [sweep.sectorAddress_eq sector, reached] at address
    obtain ⟨innerNat, innerEq⟩ := Int.eq_ofNat_of_zero_le inner.1
    obtain ⟨taken, takenEq⟩ := Int.eq_ofNat_of_zero_le count.1
    rw [innerEq, Int.toNat_natCast] at address
    rw [innerEq, takenEq] at count
    rw [takenEq] at exhausted
    have length := remembered.length_eq
    rw [updateSectors]
    apply (delivers_norSector patches sweep opened nor (by omega) sector innerEq takenEq supply here).bind
    rintro ⟨updated, statics'⟩ after ⟨buffer, position', rfl, ⟨rfl, _, there⟩ | ⟨rfl, refused⟩⟩
    · refine delivers_done.mpr (.inl ⟨rfl, ?_⟩)
      rw [there, remembered.last_norIteration large ordered (by omega) (by omega) address, Nat.add_zero]
    · exact delivers_done.mpr (.inr ⟨rfl, refused⟩)
  | succ remaining inductionHypothesis =>
    have inner := sweep.inner_bounds
    have count := sweep.count_bounds
    have further := sweep.next
    have wraps := sweep.no_wrap
    have split := sweep.split
    have startNonneg := sweep.start_nonneg
    have offsetNonneg := sweep.offset_nonneg
    have address := sweep.sectorAddress_add_inner
    rw [sweep.sectorAddress_eq sector, reached] at address
    obtain ⟨innerNat, innerEq⟩ := Int.eq_ofNat_of_zero_le inner.1
    obtain ⟨taken, takenEq⟩ := Int.eq_ofNat_of_zero_le count.1
    rw [innerEq, Int.toNat_natCast] at address
    rw [innerEq, takenEq] at count split
    rw [takenEq] at further wraps
    have length := remembered.length_eq
    rw [updateSectors]
    apply (delivers_norSector patches sweep opened nor (by omega) sector innerEq takenEq supply here).bind
    rintro ⟨updated, statics'⟩ between ⟨buffer, position', rfl, ⟨rfl, passed, there⟩ | ⟨rfl, refused⟩⟩
    · simp only [Bool.not_true, Bool.false_eq_true, if_false, splitSector_withBuffer, split]
      rw [wraps.1, wraps.2, show (moved : Int) + taken = (moved + taken : Nat) by omega]
      have handed := remembered.next_norIteration large ordered (show innerNat + taken ≤ 512 by omega)
        (by omega) address
      have later : devicePosition statics.startSector (offset + taken) = base + (moved + taken) := by
        rw [devicePosition_add startNonneg offsetNonneg, reached, Nat.add_assoc]
      have nor' : (device.holding (norIteration device.bytes (next * 512) innerNat
          (window data moved taken))).medium = .nor := nor
      have sector' : left + ((i + 1 : Nat) : Int) = ((next + 1 : Nat) : Int) := by omega
      apply (inductionHypothesis (by simpa using further) (by simpa using opened)
        nor' (by omega) sector' (by simpa using later) (by omega) handed there).mono
      rintro result after (⟨done, written⟩ | ⟨failedHere, refused⟩)
      · refine .inl ⟨done, ?_⟩
        rw [written, show next + 1 + remaining = next + (remaining + 1) by omega]
        rfl
      · refine .inr ⟨failedHere, ?_⟩
        rw [show 4 * (remaining + 1 + 1) = 4 + 4 * (remaining + 1) by omega]
        exact passed.refused refused
    · exact delivers_done.mpr (.inr ⟨rfl, refused.mono (by omega)⟩)

end

/-! ## A whole write -/

/-- The library in SPI-NOR mode, with its flash open. -/
structure NorOpened (host : Host) (statics : Statics) (world : World) : Prop where
  mode : getBootMode host = .spinor
  bootmode : statics.bootmode = .spinor
  opened : statics.fd = descriptor
  positioned : ∃ position, world.2 = some position
  nor : world.1.medium = .nor

section
variable {host : Host} {statics : Statics} {offset size : Int} {buf : List Byte} {device : Device}
  {position : Nat} {state : Faulty World}

theorem NorOpened.notNand {world : World} (ready : NorOpened host statics world) :
    getBootMode host ≠ .spinand := by
  rw [ready.mode]
  decide

theorem delivers_veepromWrite_nor (ready : NorOpened host statics (device, some position))
    (large : eraseLength ≤ device.bytes.length) (request : InSectors statics offset size)
    (sizePos : 0 < size) (supply : size ≤ buf.length) (here : state.world = (device, some position)) :
    Delivers faultyAnswer (veepromWrite host statics offset buf size) state fun result after =>
      (result.1 = 0 ∧ after.world.1 = device.holding (norBytes device.bytes (buf.take size.toNat)
          (devicePosition statics.startSector offset) (firstSector statics offset)
          (lastSector statics offset size))) ∨
        (result.1 = -1 ∧ Refused (4 * (sectorSpan statics offset size).2) state after) := by
  obtain ⟨left, count, ordered⟩ := request.sectors sizePos
  have sweep := request.sweep
  rw [count] at sweep
  have erase : (statics.bootmode == .spinor) = true := by rw [ready.bootmode]; rfl
  have length : (buf.take size.toNat).length = size.toNat := by rw [List.length_take]; omega
  have patches := patchesFrom_take (patchesFrom_callerRead buf) (show size.toNat ≤ buf.length by omega)
  rw [veepromWrite_of_valid ready.notNand request.valid, count, erase]
  apply (delivers_norSectors patches sweep ready.opened
    ready.nor large (Nat.le_refl (firstSector statics offset)) (by rw [left]; simp) (Nat.add_zero _).symm
    (by rw [length]; omega) (Remembered.untouched _ _ _ _) here).mono
  rintro result after (⟨done, written⟩ | refused)
  · rw [show firstSector statics offset + (lastSector statics offset size - firstSector statics offset) =
      lastSector statics offset size by omega] at written
    exact .inl ⟨done, written⟩
  · exact .inr refused

/-- Every byte that is not kept should be 0xFF anyway. -/
def LosesNothing (original data : List Byte) (position first written : Nat) : Prop :=
  ∀ p < eraseLength, ¬ Kept position data.length first written p →
    (overlay original position data)[p]? = some 0xff

theorem norBytes_eq_overlay_iff {original data : List Byte} {base first written : Nat}
    (large : eraseLength ≤ original.length)
    (programs : ∀ p, eraseLength ≤ p →
      (combineAt (· &&& ·) original base data)[p]? = (overlay original base data)[p]?) :
    norBytes original data base first written = overlay original base data ↔
      LosesNothing original data base first written := by
  constructor
  · intro same p below lost
    rw [← same, getElem?_norBytes_below below large, if_neg lost]
  · intro nothing
    apply List.ext_getElem?
    intro p
    by_cases below : p < eraseLength
    · rw [getElem?_norBytes_below below large]
      split
      · rfl
      · rename_i lost
        exact (nothing p below lost).symm
    · rw [getElem?_norBytes_above (by omega), programs p (by omega)]

/-- Whatever fails, a write that returns 0 has stored its bytes and changed no other. -/
def NorWriteExact (host : Host) (statics : Statics) (device : Device) (position : Nat)
    (offset : Int) (buf : List Byte) (size : Int) : Prop :=
  ∀ pattern, Delivers faultyAnswer (veepromWrite host statics offset buf size)
    (Faulty.start (device, some position) pattern) fun result after => result.1 = 0 →
      after.world.1.bytes =
        overlay device.bytes (devicePosition statics.startSector offset) (buf.take size.toNat)

/-- A write to SPI-NOR is exact if and only if the erase loses nothing. -/
theorem norWriteExact_iff (ready : NorOpened host statics (device, some position))
    (large : eraseLength ≤ device.bytes.length) (start_nonneg : 0 ≤ statics.startSector)
    (start_le_end : statics.startSector ≤ statics.endSector)
    (end_le : (statics.endSector + 4) * 512 ≤ eraseLength) (offset_nonneg : 0 ≤ offset) (size_pos : 0 < size)
    (inside : offset + size ≤ (statics.endSector - statics.startSector + 1) * 512)
    (supply : size ≤ buf.length) :
    NorWriteExact host statics device position offset buf size ↔
      LosesNothing device.bytes (buf.take size.toNat) (devicePosition statics.startSector offset)
        (firstSector statics offset) (lastSector statics offset size) := by
  have erased : (eraseLength : Int) = 65536 := rfl
  have request : InSectors statics offset size :=
    ⟨start_nonneg, start_le_end, by omega, offset_nonneg, by omega, inside, by omega⟩
  have length : (buf.take size.toNat).length = size.toNat := by rw [List.length_take]; omega
  have below : devicePosition statics.startSector offset + (buf.take size.toNat).length ≤ eraseLength := by
    unfold devicePosition
    omega
  rw [← norBytes_eq_overlay_iff large fun p above => by
    rw [getElem?_combineAt_outside (.inr (by omega)), getElem?_overlay_outside (.inr (by omega))]]
  constructor
  · intro exact
    -- the run without a failure shows what is stored
    have stored := delivers_veepromWrite_nor ready large request size_pos supply
      (show (Faulty.start (device, some position) never).world = _ from rfl)
    obtain ⟨result, after, finished, ⟨done, written⟩ | ⟨_, refused⟩⟩ := stored
    · have claimed := (exact never).of_run finished done
      rw [written] at claimed
      exact claimed
    · exact (not_refused_never refused).elim
  · intro same pattern
    apply (delivers_veepromWrite_nor ready large request size_pos supply rfl).mono
    rintro result after (⟨_, written⟩ | ⟨failedHere, _⟩) done
    · rw [written]
      exact same
    · rw [failedHere] at done
      cases done

end

/-! ## A flash of 64 KiB -/

def norHost : Host where
  sizeofPointer := 8
  boardId := some []
  bootMode := some (ascii "5")

def norStatics : Statics where
  devicePath := .mtd 0
  startSector := 0
  endSector := 0
  fd := descriptor
  buffer := .zero
  bootmode := .spinor

def norDevice (bytes : List Byte) : Device where
  medium := .nor
  path := .mtd 0
  bytes := bytes
  updating := false
  mtd := none
  gpt := none

theorem norOpened_norDevice (bytes : List Byte) (position : Nat) :
    NorOpened norHost norStatics (norDevice bytes, some position) where
  mode := by decide
  bootmode := rfl
  opened := rfl
  positioned := ⟨position, rfl⟩
  nor := rfl

/-- On a flash that is all 0xFF, one byte can be written. -/
theorem norWriteExact_iff_erasedFlash :
    NorWriteExact norHost norStatics (norDevice (List.replicate eraseLength 0xff)) 0 0 [7] 1 := by
  apply (norWriteExact_iff (norOpened_norDevice _ 0) (by rw [norDevice, List.length_replicate])
    (by decide) (by decide) (by decide) (by decide) (by decide) (by decide) (by decide)).mpr
  have position : devicePosition norStatics.startSector 0 = 0 := by decide
  have written : lastSector norStatics 0 1 = 0 := by decide
  intro p below lost
  rw [position, written] at lost
  have outside : ¬ p < 1 := by
    intro first
    apply lost
    unfold Kept
    rw [if_pos ⟨by omega, by simpa using first⟩]
    omega
  rw [position, getElem?_overlay_outside (.inr (by simp; omega))]
  exact List.getElem?_replicate_of_lt below

/-- On a flash in use, one byte at the start erases all but the first 2048. -/
theorem not_norWriteExact_usedFlash :
    ¬ NorWriteExact norHost norStatics (norDevice (List.replicate eraseLength 0)) 0 0 [7] 1 := by
  have firstBytes : (List.replicate eraseLength (0 : Byte))[2048]? = some 0 :=
    List.getElem?_replicate_of_lt (by decide)
  have large : eraseLength ≤ (List.replicate eraseLength (0 : Byte)).length := by rw [List.length_replicate]
  generalize List.replicate eraseLength (0 : Byte) = bytes at firstBytes large
  have request : InSectors norStatics 0 1 := by constructor <;> decide
  have lost : (norBytes bytes ([7].take (1 : Int).toNat) (devicePosition norStatics.startSector 0)
      (firstSector norStatics 0) (lastSector norStatics 0 1))[2048]? = some 0xff := by
    rw [getElem?_norBytes_below (by decide) large, if_neg (by decide)]
  intro exact
  obtain ⟨result, after, finished, ⟨done, written⟩ | ⟨_, refused⟩⟩ :=
    delivers_veepromWrite_nor (norOpened_norDevice bytes 0) large request (by decide)
      (show (1 : Int) ≤ ([7] : List Byte).length by decide)
      (show (Faulty.start (norDevice bytes, some 0) never).world = _ from rfl)
  · have claimed := (exact never).of_run finished done
    rw [written] at claimed
    have kept : (overlay bytes (devicePosition norStatics.startSector 0) ([7].take (1 : Int).toNat))[2048]? =
        some 0 := by
      rw [getElem?_overlay_outside (.inr (by decide)), firstBytes]
    have differ := lost.symm.trans ((congrArg (·[2048]?) claimed).trans kept)
    cases differ
  · exact (not_refused_never refused).elim

end KernelLearning.Veeprom
