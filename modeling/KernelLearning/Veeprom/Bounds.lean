import KernelLearning.Veeprom.Emmc

/-!
# Which arguments are safe

`is_parameter_valid` compares one wrapped sum with the capacity and never looks at
a sign; in SPI-NAND mode it is not called at all.
-/

namespace KernelLearning.Veeprom

open KernelLearning.Bytes KernelLearning.CSemantics KernelLearning.Interaction
open KernelLearning.Interaction.Program

/-! ## Copies inside the static buffer -/

/-- The fault of a copy that leaves `buffer[0, 2048)`. -/
def LeavesBuffer (fault : Fault) : Prop := fault = .staticBuffer

theorem avoids_attempt {α : Type} {post : α → Prop} {computation : Except Fault α}
    (inside : computation ≠ .error .staticBuffer) (holds : ∀ value, computation = .ok value → post value) :
    Avoids LeavesBuffer post (attempt computation : Code α) := by
  cases computation with
  | ok value => exact holds value rfl
  | error fault =>
    intro leaves
    exact inside (congrArg Except.error leaves)

theorem callerRead_ne_staticBuffer (buf : List Byte) (pos count : Int) :
    callerRead buf pos count ≠ .error .staticBuffer := by
  unfold callerRead
  split
  · intro impossible; cases impossible
  · intro impossible; cases impossible

theorem callerWrite_ne_staticBuffer (buf : List Byte) (pos : Int) (data : List Byte) :
    callerWrite buf pos data ≠ .error .staticBuffer := by
  unfold callerWrite
  split
  · intro impossible; cases impossible
  · intro impossible; cases impossible

theorem copyIn_ne_staticBuffer {buffer : Buffer} {start count : Int} {source : Except Fault (List Byte)}
    (inRange : Buffer.InRange start count) (safe : source ≠ .error .staticBuffer) :
    buffer.copyIn start count source ≠ .error .staticBuffer := by
  unfold Buffer.copyIn
  rw [if_pos inRange]
  cases source with
  | ok data => intro impossible; cases impossible
  | error fault =>
    intro impossible
    exact safe (congrArg Except.error (Except.error.inj impossible))

section
variable {statics : Statics} {left : Int} {i : Nat}

theorem avoids_seekSector {bad : Fault → Prop} :
    Avoids bad (fun _ => True) (seekSector statics left i) := fun _ => trivial

theorem avoids_loadSector :
    Avoids LeavesBuffer (fun result => ∃ buffer, result.2 = statics.withBuffer buffer)
      (loadSector statics left i) := by
  unfold loadSector
  apply avoids_seekSector.bind
  intro position _
  split
  · exact ⟨_, rfl⟩
  · intro answer
    cases answer with
    | none => exact ⟨_, rfl⟩
    | some chunk => exact ⟨_, Statics.withBuffer_withBuffer _ _ _⟩

theorem avoids_storeSector : Avoids LeavesBuffer (fun _ => True) (storeSector statics left i) := by
  unfold storeSector
  apply avoids_seekSector.bind
  intro position _
  split
  · trivial
  · exact fun _ => trivial

theorem avoids_eraseBlock {erase : Bool} :
    Avoids LeavesBuffer (fun _ => True) (eraseBlock erase statics) := by
  cases erase with
  | false => trivial
  | true => exact fun _ => trivial

variable {remaining : Nat} {offset size pos : Int}

theorem Sweep.inRange (sweep : Sweep statics.startSector left (remaining + 1) i offset size) :
    Buffer.InRange (splitSector statics left i offset size).1
      (splitSector statics left i offset size).2 := by
  have inner := sweep.inner_bounds
  have count := sweep.count_bounds
  rw [sweep.split]
  exact Buffer.inRange_of_le inner.1 count.1 (by omega)

theorem avoids_readSectors {buf : List Byte}
    (sweep : Sweep statics.startSector left remaining i offset size) :
    Avoids LeavesBuffer (fun _ => True) (readSectors left remaining i statics offset size pos buf) := by
  induction remaining generalizing i statics offset size pos buf with
  | zero => trivial
  | succ remaining inductionHypothesis =>
    have oneSector : Avoids LeavesBuffer (fun result => ∃ buffer, result.2.2 = statics.withBuffer buffer)
        (readSector left i statics offset size pos buf) := by
      unfold readSector
      apply avoids_loadSector.bind
      rintro ⟨loaded, statics'⟩ ⟨buffer, rfl⟩
      cases loaded with
      | false => exact ⟨_, rfl⟩
      | true =>
        simp only [Bool.not_true, Bool.false_eq_true, if_false, splitSector_withBuffer]
        rw [Buffer.copyOut_inRange _ sweep.inRange, attempt_ok, done_bind]
        apply (avoids_attempt (callerWrite_ne_staticBuffer _ _ _) fun _ _ => trivial).bind
        exact fun _ _ => ⟨_, rfl⟩
    rw [readSectors]
    apply oneSector.bind
    rintro ⟨copied, buf', statics'⟩ ⟨buffer, rfl⟩
    have wraps := sweep.no_wrap
    cases copied with
    | false => trivial
    | true =>
      simp only [Bool.not_true, Bool.false_eq_true, if_false, splitSector_withBuffer]
      rw [sweep.split, wraps.1, wraps.2]
      exact inductionHypothesis (by simpa using sweep.next)

theorem avoids_updateSectors {erase : Bool} {patch : (pos count : Int) → Except Fault (List Byte)}
    (safe : ∀ pos count, patch pos count ≠ .error .staticBuffer)
    (sweep : Sweep statics.startSector left remaining i offset size) :
    Avoids LeavesBuffer (fun _ => True)
      (updateSectors erase patch left remaining i statics offset size pos) := by
  induction remaining generalizing i statics offset size pos with
  | zero => trivial
  | succ remaining inductionHypothesis =>
    have oneSector : Avoids LeavesBuffer (fun result => ∃ buffer, result.2 = statics.withBuffer buffer)
        (updateSector erase patch left i statics offset size pos) := by
      unfold updateSector
      apply avoids_loadSector.bind
      rintro ⟨loaded, statics'⟩ ⟨buffer, rfl⟩
      cases loaded with
      | false => exact ⟨_, rfl⟩
      | true =>
        simp only [Bool.not_true, Bool.false_eq_true, if_false, splitSector_withBuffer]
        apply avoids_eraseBlock.bind
        intro _ _
        apply (avoids_attempt (copyIn_ne_staticBuffer sweep.inRange (safe _ _)) fun _ _ => trivial).bind
        intro buffer' _
        apply avoids_storeSector.bind
        exact fun _ _ => ⟨_, Statics.withBuffer_withBuffer _ _ _⟩
    rw [updateSectors]
    apply oneSector.bind
    rintro ⟨updated, statics'⟩ ⟨buffer, rfl⟩
    have wraps := sweep.no_wrap
    cases updated with
    | false => trivial
    | true =>
      simp only [Bool.not_true, Bool.false_eq_true, if_false, splitSector_withBuffer]
      rw [sweep.split, wraps.1, wraps.2]
      exact inductionHypothesis (by simpa using sweep.next)

end

/-! ## Opening and closing -/

section
variable {host : Host} {statics : Statics}

theorem avoids_selectDevice : Avoids LeavesBuffer (fun _ => True) (selectDevice host statics) := by
  unfold selectDevice
  split
  · apply avoids_call_bind
    intro present
    cases present with
    | true => trivial
    | false =>
      apply avoids_call_bind
      intro listing
      cases listing with
      | none => trivial
      | some entries =>
        simp only [done_bind]
        split
        · trivial
        · apply avoids_call_bind
          intro attached
          cases attached <;> trivial
  · exact fun _ => trivial
  · apply avoids_call_bind
    intro table
    cases table with
    | none => exact fun _ => trivial
    | some entries =>
      simp only [done_bind]
      split
      · exact fun _ => trivial
      · trivial

theorem avoids_veepromInit : Avoids LeavesBuffer (fun _ => True) (veepromInit host statics) := by
  unfold veepromInit
  apply avoids_call_bind
  intro fd
  simp only [done_bind]
  split
  · apply avoids_selectDevice.bind
    rintro ⟨found, statics'⟩ _
    cases found with
    | false => trivial
    | true =>
      apply avoids_call_bind
      intro fd'
      simp only [done_bind]
      split <;> trivial
  · trivial

theorem avoids_ensureOpen : Avoids LeavesBuffer (fun _ => True) (ensureOpen host statics) := by
  unfold ensureOpen
  split
  · apply avoids_veepromInit.bind
    exact fun _ _ => trivial
  · trivial

theorem avoids_veepromExit : Avoids LeavesBuffer (fun _ => True) (veepromExit statics) :=
  fun _ _ => trivial

end

/-! ## The check and what it lets through -/

/-- How many bytes there are to address. -/
def capacity (host : Host) (statics : Statics) : Int :=
  if getBootMode host = .spinand then bufferSize
  else (statics.endSector - statics.startSector + 1) * sectorSize

/-- The call returns -1 without a single operation, and without a change to the caller's
buffer. -/
def Rejects (host : Host) (statics : Statics) (access : Access) : Prop :=
  access.perform host statics = .done (⟨-1, access.given⟩, statics)

/-- The requested range lies within the capacity. -/
def Fits (host : Host) (statics : Statics) (access : Access) : Prop :=
  0 ≤ access.offset ∧ 0 ≤ access.size ∧ access.offset + access.size ≤ capacity host statics

/-- Whatever the system calls return, no copy leaves `buffer[0, 2048)`. -/
def StaysInBuffer (host : Host) (statics : Statics) (access : Access) : Prop :=
  ∀ (World : Type) (answer : Handler Sys Sys.Res World) (world : World),
    (run answer (access.perform host statics) world).1 ≠ .error .staticBuffer

def Checked (host : Host) (statics : Statics) (access : Access) : Prop :=
  Rejects host statics access ∨ Fits host statics access ∧ StaysInBuffer host statics access

/-- The arguments that are dealt with properly.  Outside SPI-NAND mode these are the
non-negative ones whose sum does not overflow, and those with a negative one among them
whose wrapped sum still exceeds the capacity. -/
def SafeArguments (host : Host) (statics : Statics) (access : Access) : Prop :=
  if getBootMode host = .spinand then
    0 ≤ access.offset ∧ 0 ≤ access.size ∧ access.offset + access.size ≤ bufferSize
  else
    (0 ≤ access.offset ∧ 0 ≤ access.size ∧ access.offset + access.size < 2 ^ 31) ∨
      (capacity host statics < access.offset + access.size ∧ access.offset + access.size < 2 ^ 31) ∨
      (capacity host statics - 2 ^ 32 < access.offset + access.size ∧
        access.offset + access.size < -2 ^ 31)

section
variable {host : Host} {statics : Statics} {access : Access}

theorem staysInBuffer_of_avoids
    (avoids : Avoids LeavesBuffer (fun _ => True) (access.perform host statics)) :
    StaysInBuffer host statics access :=
  fun _ answer world reached => avoids.run answer world reached rfl

theorem avoids_perform_of_inSectors (mode : getBootMode host ≠ .spinand)
    (request : InSectors statics access.offset access.size) :
    Avoids LeavesBuffer (fun _ => True) (access.perform host statics) := by
  cases access with
  | read offset buf size =>
    change InSectors statics offset size at request
    rw [Access.perform, veepromRead_of_valid mode request.valid]
    exact (avoids_readSectors request.sweep).bind fun _ _ => trivial
  | write offset buf size =>
    change InSectors statics offset size at request
    rw [Access.perform, veepromWrite_of_valid mode request.valid]
    exact (avoids_updateSectors (callerRead_ne_staticBuffer buf) request.sweep).bind fun _ _ => trivial
  | clear offset size heap =>
    change InSectors statics offset size at request
    rw [Access.perform, veepromClear_of_valid mode request.valid]
    refine (avoids_updateSectors (fun _ _ impossible => ?_) request.sweep).bind fun _ _ => trivial
    cases impossible

theorem loadSector_ne_done {left : Int} {i : Nat} {value : Bool × Statics} :
    loadSector statics left i ≠ .done value := by
  intro returns
  obtain ⟨_, impossible, _⟩ := done_of_bind_eq_done returns
  cases impossible

theorem readSectors_done {left offset size pos : Int} {remaining i : Nat} {buf : List Byte}
    {value : Int × List Byte × Statics}
    (returns : readSectors left remaining i statics offset size pos buf = .done value) :
    value.1 = 0 := by
  cases remaining with
  | zero => cases returns; rfl
  | succ remaining =>
    obtain ⟨_, oneSector, _⟩ := done_of_bind_eq_done returns
    obtain ⟨_, loaded, _⟩ := done_of_bind_eq_done oneSector
    exact (loadSector_ne_done loaded).elim

theorem updateSectors_done {erase : Bool} {patch : (pos count : Int) → Except Fault (List Byte)}
    {left offset size pos : Int} {remaining i : Nat} {value : Int × Statics}
    (returns : updateSectors erase patch left remaining i statics offset size pos = .done value) :
    value.1 = 0 := by
  cases remaining with
  | zero => cases returns; rfl
  | succ remaining =>
    obtain ⟨_, oneSector, _⟩ := done_of_bind_eq_done returns
    obtain ⟨_, loaded, _⟩ := done_of_bind_eq_done oneSector
    exact (loadSector_ne_done loaded).elim

/-- Past the check, there is at least one operation or a result other than -1. -/
theorem not_rejects_of_valid (mode : getBootMode host ≠ .spinand)
    (valid : isParameterValid statics access.offset access.size = true) :
    ¬ Rejects host statics access := by
  intro rejects
  unfold Rejects at rejects
  cases access with
  | read offset buf size =>
    change isParameterValid statics offset size = true at valid
    rw [Access.perform, veepromRead_of_valid mode valid] at rejects
    obtain ⟨⟨ret, _, _⟩, looped, packed⟩ := done_of_bind_eq_done rejects
    have zero : ret = 0 := readSectors_done looped
    cases packed
    cases zero
  | write offset buf size =>
    change isParameterValid statics offset size = true at valid
    rw [Access.perform, veepromWrite_of_valid mode valid] at rejects
    obtain ⟨⟨ret, _⟩, looped, packed⟩ := done_of_bind_eq_done rejects
    have zero : ret = 0 := updateSectors_done looped
    cases packed
    cases zero
  | clear offset size heap =>
    change isParameterValid statics offset size = true at valid
    rw [Access.perform, veepromClear_of_valid mode valid] at rejects
    obtain ⟨⟨ret, _⟩, looped, packed⟩ := done_of_bind_eq_done rejects
    have zero : ret = 0 := updateSectors_done looped
    cases packed
    cases zero

/-! ## SPI-NAND -/

theorem veepromRead_ne_done {offset size : Int} {buf : List Byte} {value : Int × List Byte × Statics}
    (mode : getBootMode host = .spinand) : veepromRead host statics offset buf size ≠ .done value := by
  unfold veepromRead
  rw [if_pos mode]
  intro returns
  obtain ⟨_, _, read⟩ := done_of_bind_eq_done returns
  obtain ⟨_, impossible, _⟩ := done_of_bind_eq_done read
  cases impossible

theorem veepromWrite_ne_done {offset size : Int} {buf : List Byte} {value : Int × Statics}
    (mode : getBootMode host = .spinand) : veepromWrite host statics offset buf size ≠ .done value := by
  unfold veepromWrite
  rw [if_pos mode]
  intro returns
  obtain ⟨_, _, read⟩ := done_of_bind_eq_done returns
  obtain ⟨_, impossible, _⟩ := done_of_bind_eq_done read
  cases impossible

theorem not_rejects_of_spinand (mode : getBootMode host = .spinand) : ¬ Rejects host statics access := by
  intro rejects
  unfold Rejects at rejects
  cases access with
  | read offset buf size =>
    obtain ⟨_, read, _⟩ := done_of_bind_eq_done rejects
    exact veepromRead_ne_done mode read
  | write offset buf size =>
    obtain ⟨_, written, _⟩ := done_of_bind_eq_done rejects
    exact veepromWrite_ne_done mode written
  | clear offset size heap =>
    obtain ⟨_, cleared, _⟩ := done_of_bind_eq_done rejects
    unfold veepromClear at cleared
    rw [if_pos mode] at cleared
    obtain ⟨_, _, written⟩ := done_of_bind_eq_done cleared
    exact veepromWrite_ne_done mode written

theorem avoids_veepromRead_spinand {offset size : Int} {buf : List Byte}
    (mode : getBootMode host = .spinand) (inRange : Buffer.InRange offset size) :
    Avoids LeavesBuffer (fun _ => True) (veepromRead host statics offset buf size) := by
  unfold veepromRead
  rw [if_pos mode]
  apply avoids_ensureOpen.bind
  intro statics' _
  apply avoids_call_bind
  intro answer
  simp only [done_bind]
  rw [Buffer.copyOut_inRange _ inRange, attempt_ok, done_bind]
  apply (avoids_attempt (callerWrite_ne_staticBuffer _ _ _) fun _ _ => trivial).bind
  intro buf' _
  exact avoids_veepromExit.bind fun _ _ => trivial

theorem avoids_veepromWrite_spinand {offset size : Int} {buf : List Byte}
    (mode : getBootMode host = .spinand) (inRange : Buffer.InRange offset size) :
    Avoids LeavesBuffer (fun _ => True) (veepromWrite host statics offset buf size) := by
  unfold veepromWrite
  rw [if_pos mode]
  apply avoids_ensureOpen.bind
  intro statics' _
  apply avoids_call_bind
  intro answer
  simp only [done_bind]
  apply (avoids_attempt (copyIn_ne_staticBuffer inRange (callerRead_ne_staticBuffer _ _ _))
    fun _ _ => trivial).bind
  intro buffer _
  apply avoids_call_bind
  intro started
  simp only [done_bind]
  split
  · trivial
  · apply avoids_call_bind
    intro written
    exact avoids_veepromExit.bind fun _ _ => trivial

theorem avoids_perform_of_spinand (mode : getBootMode host = .spinand)
    (inRange : Buffer.InRange access.offset access.size) :
    Avoids LeavesBuffer (fun _ => True) (access.perform host statics) := by
  cases access with
  | read offset buf size => exact (avoids_veepromRead_spinand mode inRange).bind fun _ _ => trivial
  | write offset buf size => exact (avoids_veepromWrite_spinand mode inRange).bind fun _ _ => trivial
  | clear offset size heap =>
    have cleared : Avoids LeavesBuffer (fun _ => True) (veepromClear host statics offset size heap) := by
      unfold veepromClear clearHeap
      rw [if_pos mode]
      apply Avoids.bind (avoids_attempt _ fun _ _ => trivial)
      · exact fun _ _ => avoids_veepromWrite_spinand mode inRange
      · split
        · intro impossible; cases impossible
        · intro impossible; cases impossible
    exact cleared.bind fun _ _ => trivial

/-! ## Exactly the safe arguments -/

/-- A call is rejected untouched, or stays within capacity and buffer, exactly for the
safe arguments. -/
theorem checked_iff_safeArguments (offset32 : IsInt32 access.offset) (size32 : IsInt32 access.size)
    (start_nonneg : 0 ≤ statics.startSector) (start_le_end : statics.startSector ≤ statics.endSector)
    (end_lt : statics.endSector < 2 ^ 21) :
    Checked host statics access ↔ SafeArguments host statics access := by
  obtain ⟨offsetLow, offsetHigh⟩ := offset32
  obtain ⟨sizeLow, sizeHigh⟩ := size32
  unfold Checked SafeArguments Fits capacity
  by_cases mode : getBootMode host = .spinand
  · rw [if_pos mode, if_pos mode, or_iff_right (not_rejects_of_spinand mode)]
    exact and_iff_left_of_imp fun inRange => staysInBuffer_of_avoids (avoids_perform_of_spinand mode inRange)
  rw [if_neg mode, if_neg mode]
  -- the comparison of unsigned values is one of the wrapped sum
  have compared : isParameterValid statics access.offset access.size = true ↔
      toInt32 (access.offset + access.size) ≤ (statics.endSector - statics.startSector + 1) * 512 := by
    have right : toUInt32 ((statics.endSector - statics.startSector + 1) * 512) =
        (statics.endSector - statics.startSector + 1) * 512 := toUInt32_of_isUInt32 ⟨by omega, by omega⟩
    have whole : toInt32 ((statics.endSector - statics.startSector + 1) * 512) =
        (statics.endSector - statics.startSector + 1) * 512 := toInt32_of_isInt32 ⟨by omega, by omega⟩
    unfold isParameterValid sectorSize
    simp only [right, whole, Int.sub_zero]
    simp
  unfold sectorSize
  cases valid : isParameterValid statics access.offset access.size with
  | false =>
    have rejects : Rejects host statics access := perform_of_invalid mode valid
    rw [valid] at compared
    refine ⟨fun _ => ?_, fun _ => .inl rejects⟩
    have exceeds : ¬ toInt32 (access.offset + access.size) ≤ _ := fun le => by
      cases compared.mpr le
    unfold toInt32 at exceeds
    omega
  | true =>
    have le := compared.mp valid
    unfold toInt32 at le
    rw [or_iff_right (not_rejects_of_valid mode valid)]
    constructor
    · rintro ⟨⟨offsetNonneg, sizeNonneg, inside⟩, _⟩
      exact .inl ⟨offsetNonneg, sizeNonneg, by omega⟩
    · intro safe
      have fits : 0 ≤ access.offset ∧ 0 ≤ access.size ∧ access.offset + access.size ≤
          (statics.endSector - statics.startSector + 1) * 512 := by omega
      refine ⟨fits, staysInBuffer_of_avoids (avoids_perform_of_inSectors mode ?_)⟩
      exact ⟨start_nonneg, start_le_end, by omega, fits.1, fits.2.1, fits.2.2, by omega⟩

end

theorem checked_iff_safeArguments_oneByte :
    Checked emmcHost (emmcStatics 0 0) (.write 511 [7] 1) ↔
      SafeArguments emmcHost (emmcStatics 0 0) (.write 511 [7] 1) :=
  checked_iff_safeArguments ⟨by decide, by decide⟩ ⟨by decide, by decide⟩ (by decide) (by decide) (by decide)

/-- One byte at offset -1 passes the check. -/
theorem not_checked_negative_offset : ¬ Checked emmcHost (emmcStatics 0 0) (.write (-1) [7] 1) := by
  rintro (rejects | ⟨⟨nonneg, _⟩, _⟩)
  · exact not_rejects_of_valid (by decide) (by decide) rejects
  · exact absurd nonneg (by decide)

end KernelLearning.Veeprom
