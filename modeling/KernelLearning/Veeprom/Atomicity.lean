import KernelLearning.Veeprom.Emmc

/-!
# Interrupted writes on eMMC

A write or a clear that is refused a system call has stored a prefix of its bytes,
and repeating it stores the rest.  That needs sectors whose byte positions fit an
`unsigned int`: further up the positions wrap around to the start of the device.
-/

namespace KernelLearning.Veeprom

open KernelLearning.Bytes KernelLearning.CSemantics KernelLearning.Interaction
open KernelLearning.Interaction.Program KernelLearning.Interaction.Faulty

/-- If the call is refused an operation under `pattern`, it returns -1 with a prefix of
its bytes stored, and its repetition ends like a call that was never interrupted. -/
def FailureAtomic (host : Host) (statics : Statics) (device : Device) (position : Nat)
    (access : Access) (pattern : Nat → Bool) : Prop :=
  Delivers faultyAnswer (access.perform host statics) (Faulty.start (device, some position) pattern)
    fun result after => after.failed = true →
      result.1.ret = -1 ∧
        (∃ moved ≤ access.stored.length, after.world.1 =
          device.overlaid (devicePosition statics.startSector access.offset) (access.stored.take moved)) ∧
        ∃ complete : Device,
          Delivers answer (access.perform host statics) (device, some position)
              (fun uninterrupted world' => uninterrupted.1.ret = 0 ∧ world'.1 = complete) ∧
            Delivers answer (access.perform host result.2) after.world
              fun repeated world' => repeated.1.ret = 0 ∧ world'.1 = complete

/-- The request lies in sectors that an `unsigned int` can address, and `offset + size`
does not overflow. -/
structure InAddressableSectors (statics : Statics) (access : Access) : Prop where
  start_nonneg : 0 ≤ statics.startSector
  start_le_end : statics.startSector ≤ statics.endSector
  addressable : (statics.endSector + 1) * 512 ≤ 2 ^ 32
  offset_nonneg : 0 ≤ access.offset
  size_pos : 0 < access.size
  inside : access.offset + access.size ≤ (statics.endSector - statics.startSector + 1) * 512
  no_overflow : access.offset + access.size < 2 ^ 31
  supplied : access.Supplied

namespace InAddressableSectors

variable {host : Host} {statics : Statics} {access : Access}

/-- Sectors of 2 GiB and more make `max_size` negative, and nothing is accepted. -/
theorem inSectors_or_invalid (request : InAddressableSectors statics access) :
    InSectors statics access.offset access.size ∨
      isParameterValid statics access.offset access.size = false := by
  obtain ⟨startNonneg, startLeEnd, addressable, offsetNonneg, sizePos, inside, noOverflow, _⟩ := request
  by_cases capacity : (statics.endSector - statics.startSector + 1) * 512 < 2 ^ 31
  · exact .inl ⟨startNonneg, startLeEnd, by omega, offsetNonneg, by omega, inside, capacity⟩
  · refine .inr ?_
    have sum : toInt32 (access.offset + access.size) = access.offset + access.size :=
      toInt32_of_isInt32 ⟨by omega, by omega⟩
    unfold isParameterValid sectorSize
    simp only [sum]
    simp only [Bool.not_eq_false', decide_eq_true_eq]
    unfold toInt32 toUInt32
    omega

end InAddressableSectors

/-- The bytes of an interrupted call lie under those of its repetition. -/
theorem overlaid_overlaid_take (device : Device) (offset moved : Nat) (data : List Byte) :
    (device.overlaid offset (data.take moved)).overlaid offset data = device.overlaid offset data := by
  simp only [Device.overlaid]
  rw [overlay_overlay_of_length_le (by rw [List.length_take]; omega)]

/-- A write or a clear on eMMC survives every failure of its system calls. -/
theorem emmc_failure_atomic {host : Host} {statics : Statics} {device : Device} {position : Nat}
    {access : Access} (opened : EmmcOpened host statics (device, some position))
    (modifies : access.Modifies) (request : InAddressableSectors statics access)
    (pattern : Nat → Bool) : FailureAtomic host statics device position access pattern := by
  unfold FailureAtomic
  rcases request.inSectors_or_invalid with inSectors | invalid
  · apply (opened.advances inSectors modifies request.supplied).mono
    rintro ⟨reply, statics'⟩ ⟨world', pattern', failed'⟩
      ⟨moved, buffer, position', bound, rfl, rfl, ⟨_, _, passed⟩ | ⟨rfl, _⟩⟩
    · intro impossible
      cases passed.failed_eq.symm.trans impossible
    intro _
    refine ⟨rfl, ⟨moved, bound, rfl⟩,
      device.overlaid (devicePosition statics.startSector access.offset) access.stored, ?_, ?_⟩
    · apply (opened.stores inSectors modifies request.supplied).mono
      rintro _ _ ⟨_, _, rfl, rfl⟩
      exact ⟨rfl, rfl⟩
    · have again : InSectors (statics.withBuffer buffer) access.offset access.size := by
        obtain ⟨_, _, _, _, _, _, _⟩ := inSectors
        constructor <;> assumption
      apply ((opened.moved buffer position' _).stores again modifies request.supplied).mono
      rintro _ _ ⟨_, _, rfl, rfl⟩
      rw [Statics.withBuffer_startSector]
      exact ⟨rfl, overlaid_overlaid_take _ _ _ _⟩
  · rw [perform_of_invalid opened.notNand invalid, delivers_done]
    intro impossible
    cases impossible

/-- A write across two sectors that is refused an operation on the second one. -/
theorem emmc_failure_atomic_secondSector :
    ∃ result after, run faultyAnswer (Access.perform emmcHost (emmcStatics 0 1) (.write 510 [7, 8, 9, 10] 4))
        (Faulty.start (emmcDevice (List.replicate 1024 0), some 0) fun index => index = 6) = (.ok result, after) ∧
      result.1.ret = -1 ∧
      ∃ moved ≤ 4, after.world.1 =
        (emmcDevice (List.replicate 1024 0)).overlaid 510 ([7, 8, 9, 10].take moved) := by
  have opened := emmcOpened_emmcDevice 0 1 (List.replicate 1024 0) 0
  have modifies : Access.Modifies (.write 510 [7, 8, 9, 10] 4) := trivial
  have request : InAddressableSectors (emmcStatics 0 1) (.write 510 [7, 8, 9, 10] 4) :=
    { start_nonneg := by decide, start_le_end := by decide, addressable := by decide
      offset_nonneg := by decide, size_pos := by decide, inside := by decide
      no_overflow := by decide, supplied := by simp [Access.Supplied] }
  have inSectors := request.inSectors_or_invalid.resolve_right (by decide)
  obtain ⟨result, after, finished, _, _, _, _, _, _, outcome⟩ :=
    opened.advances inSectors modifies request.supplied
  refine ⟨result, after, finished, ?_⟩
  have atomic := (emmc_failure_atomic opened modifies request fun index => index = 6).of_run finished
  obtain ⟨_, _, passed⟩ | ⟨_, refused⟩ := outcome
  · -- the write makes eight operations that can be refused
    have answered := passed.answered 6 (by decide)
    cases answered
  · obtain ⟨returned, stored, _⟩ := atomic refused.failed
    exact ⟨returned, stored⟩

/-! ## Sectors beyond 4 GiB -/

/-- The write of 1024 bytes into the two sectors from 2^23 on loses its fifth operation,
after the first sector went to the start of the device. -/
theorem wrapped_write_interrupted (bytes data : List Byte) (length : data.length = 1024) :
    Delivers faultyAnswer
      (Access.perform emmcHost (emmcStatics (2 ^ 23) (2 ^ 23 + 1)) (.write 0 data 1024))
      (Faulty.start (emmcDevice bytes, some 0) fun index => index = 4) fun _ after =>
        after.failed = true ∧ after.world.1 = (emmcDevice bytes).overlaid 0 (data.take 512) := by
  generalize staticsEq : emmcStatics (2 ^ 23) (2 ^ 23 + 1) = statics
  have notNand : getBootMode emmcHost ≠ .spinand := by decide
  have valid : isParameterValid statics 0 1024 = true := by rw [← staticsEq]; decide
  have spanned : sectorSpan statics 0 1024 = (2 ^ 23, 2) := by rw [← staticsEq]; decide
  have first : splitSector statics (2 ^ 23) 0 0 1024 = (((0 : Nat) : Int), ((512 : Nat) : Int)) := by
    rw [← staticsEq]; decide
  have second : splitSector statics (2 ^ 23) 1 512 512 = (((0 : Nat) : Int), ((512 : Nat) : Int)) := by
    rw [← staticsEq]; decide
  have opened : statics.fd = descriptor := by rw [← staticsEq]; rfl
  have bootmode : (statics.bootmode == .spinor) = false := by rw [← staticsEq]; rfl
  have takes := patchesFrom_callerRead data
  have medium := (emmcOpened_emmcDevice (2 ^ 23) (2 ^ 23 + 1) bytes 0).block
  have inPlace := (emmcOpened_emmcDevice (2 ^ 23) (2 ^ 23 + 1) bytes 0).inPlace
  have chunk : (window data 0 512).length = 512 := length_window_of_le (by omega)
  -- The result of the write itself does not matter, only what it leaves behind.
  have written : Delivers faultyAnswer (veepromWrite emmcHost statics 0 data 1024)
      (Faulty.start (emmcDevice bytes, some 0) fun index => index = 4) fun _ after =>
        after.failed = true ∧ after.world.1 = (emmcDevice bytes).overlaid 0 (data.take 512) := by
    rw [veepromWrite_of_valid notNand valid, spanned, bootmode, updateSectors]
    apply (delivers_updateSector first (by omega) (takes 0 512 (by omega)) opened inPlace rfl).bind
    rintro ⟨updated, statics'⟩ between
      ⟨buffer, position, rfl, opened', ⟨rfl, passed, written⟩ | ⟨rfl, refused, _⟩⟩
    · change between.world.1 = (emmcDevice bytes).patch (sectorAddress (2 ^ 23) 0)
        (patchedWindow (emmcDevice bytes) (sectorAddress (2 ^ 23) 0) 0 (window data 0 512)) at written
      rw [show sectorAddress (2 ^ 23) 0 = 0 by decide, patch_patchedWindow _ _ _ (by omega),
        Device.patch_block _ _ medium] at written
      have there : between.world = ((emmcDevice bytes).overlaid 0 (data.take 512), some position) :=
        Prod.ext written opened'
      simp only [Bool.not_true, Bool.false_eq_true, if_false, splitSector_withBuffer, first]
      rw [updateSectors]
      apply (delivers_updateSector ((splitSector_withBuffer _ _ _ _ _ _).trans second) (by omega)
        (takes 512 512 (by omega)) (by simpa using opened) (by exact inPlace) there).bind
      rintro ⟨updated, statics'⟩ after
        ⟨buffer, position, rfl, _, ⟨rfl, passed', _⟩ | ⟨rfl, refused, unchanged⟩⟩
      · have answered := passed'.answered 0 (by omega)
        rw [passed.pattern_eq] at answered
        cases answered
      · exact delivers_done.mpr ⟨refused.failed, unchanged.elim id id⟩
    · obtain ⟨_, index, bound, hit⟩ := refused
      simp only [Faulty.start, decide_eq_true_eq] at hit
      omega
  unfold Access.perform
  apply written.bind
  rintro ⟨ret, statics'⟩ after outcome
  exact delivers_done.mpr outcome

/-- So the first sector of the device changed, and no byte of the request is there. -/
theorem not_failureAtomic_beyond_4GiB :
    ¬ FailureAtomic emmcHost (emmcStatics (2 ^ 23) (2 ^ 23 + 1))
      (emmcDevice (List.replicate (2 ^ 32 + 1024) 0)) 0 (.write 0 (List.replicate 1024 1) 1024)
      (fun index => index = 4) := by
  have firstByte : (List.replicate (2 ^ 32 + 1024) (0 : Byte))[0]? = some 0 :=
    List.getElem?_replicate_of_lt (by omega)
  generalize List.replicate (2 ^ 32 + 1024) (0 : Byte) = bytes at firstByte
  obtain ⟨inside, _⟩ := List.getElem?_eq_some_iff.mp firstByte
  have data : (List.replicate 1024 (1 : Byte)).take 512 = List.replicate 512 1 := by
    rw [List.take_replicate]
    rfl
  have changed : (overlay bytes 0 (List.replicate 512 1))[0]? = some 1 := by
    rw [getElem?_overlay_inside (by omega) (by rw [List.length_replicate]; omega) inside,
      List.getElem?_replicate_of_lt (by omega)]
  have kept : ∀ rest, (overlay bytes (devicePosition (2 ^ 23) 0) rest)[0]? = some 0 := by
    intro rest
    rw [show devicePosition (2 ^ 23) 0 = 2 ^ 32 by decide, getElem?_overlay_outside (.inl (by omega)),
      firstByte]
  intro atomic
  obtain ⟨result, after, finished, failed, written⟩ :=
    wrapped_write_interrupted bytes (List.replicate 1024 1) List.length_replicate
  obtain ⟨_, ⟨moved, _, claimed⟩, _⟩ := atomic.of_run finished failed
  rw [written, data] at claimed
  have first := changed.symm.trans ((congrArg (fun device => device.bytes[0]?) claimed).trans (kept _))
  cases first

end KernelLearning.Veeprom
