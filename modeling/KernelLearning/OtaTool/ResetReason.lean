import KernelLearning.OtaTool.Commands

/-!
# Writing and printing the reset reason

The field has eight bytes and no room for a terminator.  Seven characters and less
bring their own; after the eight of `recovery` it is up to the buffer.
-/

namespace KernelLearning.OtaTool

open KernelLearning.Bytes KernelLearning.CSemantics KernelLearning.Interaction KernelLearning.Veeprom
open KernelLearning.Interaction.Program

section
variable {world : ToolWorld} {value rest : List Byte}

/-- The world after a reset reason was written. -/
def ToolWorld.writingReason (world : ToolWorld) (para : List Byte) : ToolWorld :=
  world.writing veepromResetReasonOffset (para.take veepromResetReasonSize)

theorem ToolWorld.field_writingReason {para : List Byte} (long : veepromResetReasonSize ≤ para.length) :
    (world.writingReason para).field veepromResetReasonOffset veepromResetReasonSize =
      para.take veepromResetReasonSize := by
  have length : (para.take veepromResetReasonSize).length = veepromResetReasonSize := by
    rw [List.length_take, Nat.min_eq_left long]
  have inside : veepromResetReasonOffset + (para.take veepromResetReasonSize).length ≤ veepromCapacity := by
    rw [length]
    decide
  have stored := world.field_writing inside
  rw [length] at stored
  exact stored

theorem answerTool_readReason (world : ToolWorld) (opened : world.opened = true) {buffer : List Byte}
    (length : buffer.length = 32) :
    answerTool (.veepromRead veepromResetReasonOffset buffer veepromResetReasonSize) world =
      ((0, world.field veepromResetReasonOffset veepromResetReasonSize ++
        buffer.drop veepromResetReasonSize), world) :=
  answerTool_read opened (by decide) (by rw [length]; decide)

theorem length_lt_or_eq_recovery (isReason : IsResetReason value) :
    value.length < 8 ∨ value = ascii "recovery" := by
  obtain ⟨reason, member, rfl⟩ := isReason
  revert reason
  decide

/-- The byte behind an eight character reason is 0 by chance. -/
def Terminated (value buffer : List Byte) : Prop := value = ascii "recovery" → buffer.getD 8 0 = 0

instance (value buffer : List Byte) : Decidable (Terminated value buffer) :=
  inferInstanceAs (Decidable (value = ascii "recovery" → buffer.getD 8 0 = 0))

/-- What a buffer holds after a reason was read into it. -/
theorem readBack (rest : List Byte) (isReason : IsResetReason value) {buffer : List Byte}
    (length : buffer.length = 32) :
    ∃ next more, (value ++ 0 :: rest).take veepromResetReasonSize ++ buffer.drop veepromResetReasonSize =
      value ++ next :: more ∧ (next = 0 ↔ Terminated value buffer) := by
  unfold veepromResetReasonSize
  rcases length_lt_or_eq_recovery isReason with short | recovery
  · refine ⟨0, rest.take (7 - value.length) ++ buffer.drop 8, ?_, ?_⟩
    · rw [List.take_append, List.take_of_length_le (by omega),
        show 8 - value.length = (7 - value.length) + 1 by omega]
      simp
    · refine iff_of_true rfl fun recovery => ?_
      rw [recovery] at short
      exact absurd short (by decide)
  · have full : value.length = 8 := by rw [recovery]; rfl
    have inside : 8 < buffer.length := by omega
    refine ⟨buffer.getD 8 0, buffer.drop 9, ?_, ?_⟩
    · rw [List.take_append, List.take_of_length_le (by omega), full, List.drop_eq_getElem_cons inside]
      simp [List.getD_eq_getElem?_getD, List.getElem?_eq_getElem inside]
    · exact ⟨fun zero _ => zero, fun terminated => terminated recovery⟩

end

/-! ## Runs on a veeprom that stores -/

section
variable {world : ToolWorld} {value rest : List Byte}

/-- `para` is the object of 32 bytes in `main`, with a string in it. -/
structure IsPara (value rest : List Byte) : Prop where
  clean : IsText value
  length_eq : (value ++ 0 :: rest).length = 32

theorem IsPara.fits (para : IsPara value rest) : value.length < 64 := by
  have length := para.length_eq
  rw [List.length_append, List.length_cons] at length
  omega

/-- The write verifies if the ninth byte of its buffer terminates the string. -/
theorem run_resetreasonWrite_accepted (stack : Stack) (opened : world.opened = true)
    (para : IsPara value rest) (isReason : IsResetReason value) :
    (resetreasonWrite stack (value ++ 0 :: rest)).run answerTool world =
      (.ok (if Terminated value stack.writeBuffer then 0 else -1),
        world.writingReason (value ++ 0 :: rest)) := by
  have written : answerTool
      (.veepromWrite veepromResetReasonOffset (value ++ 0 :: rest) veepromResetReasonSize) world =
        (0, world.writingReason (value ++ 0 :: rest)) := answerTool_write opened (by decide) _
  have read := answerTool_readReason (world.writingReason (value ++ 0 :: rest)) opened
    stack.writeBuffer_length
  rw [ToolWorld.field_writingReason (by rw [para.length_eq]; decide)] at read
  obtain ⟨next, more, held, terminated⟩ := readBack rest isReason stack.writeBuffer_length
  rw [held] at read
  unfold resetreasonWrite
  rw [resetreasonParaCheck_eq para.clean para.fits, if_pos isReason]
  by_cases zero : next = 0
  · subst zero
    rw [if_pos (terminated.mp rfl)]
    simp [written, read, strcmp_same para.clean]
  · obtain ⟨order, compared, differs⟩ := strcmp_differ para.clean zero more rest
    rw [if_neg (mt terminated.mpr zero)]
    simp [written, read, compared, differs]

end

/-! ## Reasons that survive -/

section
variable {world : ToolWorld} {value rest : List Byte}

end

end KernelLearning.OtaTool
