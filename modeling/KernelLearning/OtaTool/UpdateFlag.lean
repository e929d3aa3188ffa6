import KernelLearning.CSemantics.Platform
import KernelLearning.OtaTool.Commands

/-!
# Setting and printing the update flag

`updateflag_set` checks the characters of its argument, converts it with `atoi` and
keeps one byte of the result; `updateflag_get` prints that byte as a `char`.
-/

namespace KernelLearning.OtaTool

open KernelLearning.Bytes KernelLearning.CSemantics KernelLearning.Interaction KernelLearning.Veeprom
open KernelLearning.Interaction.Program

/-! ## The check of a flag -/

/-- Every character lies between `'0'` and `'f'`. -/
def IsLegal (text : List Byte) : Prop := ∀ byte ∈ text, 48 ≤ byte ∧ byte ≤ 102

instance (text : List Byte) : Decidable (IsLegal text) :=
  List.decidableBAll (fun byte => 48 ≤ byte ∧ byte ≤ 102) text

section
variable {platform : Platform} {text : List Byte}

/-- The characters from 128 on are above the bounds, or below them where `char` is signed. -/
theorem char_outside_iff {byte : Byte} :
    (platform.char byte < 48 ∨ platform.char byte > 102) ↔ ¬ (48 ≤ byte ∧ byte ≤ 102) := by
  have bound := byte.toNat_lt
  rw [UInt8.le_iff_toNat_le, UInt8.le_iff_toNat_le]
  change _ ↔ ¬ (48 ≤ byte.toNat ∧ byte.toNat ≤ 102)
  by_cases small : byte < 128
  · rw [platform.char_of_lt small]
    omega
  · rw [UInt8.lt_iff_toNat_lt] at small
    change ¬ byte.toNat < 128 at small
    have outside : platform.char byte < 0 ∨ 128 ≤ platform.char byte := by
      unfold Platform.char signedCharValue
      split
      · split <;> omega
      · omega
    omega

theorem parameterCheck_eq_zero_iff : parameterCheck platform text = 0 ↔ IsLegal text := by
  induction text with
  | nil => simp [parameterCheck, IsLegal]
  | cons byte text inductionHypothesis =>
    rw [IsLegal, List.forall_mem_cons, ← IsLegal, ← inductionHypothesis, parameterCheck]
    by_cases inside : 48 ≤ byte ∧ byte ≤ 102
    · rw [if_neg (char_outside_iff.not.mpr (not_not.mpr inside))]
      simp [inside]
    · rw [if_pos (char_outside_iff.mpr inside)]
      simp [inside]

theorem isLegal_of_numeral (numeral : ∀ byte ∈ text, isDigit byte = true) : IsLegal text := by
  intro byte member
  have bounds := (isDigit_iff byte).mp (numeral byte member)
  rw [UInt8.le_iff_toNat_le, UInt8.le_iff_toNat_le]
  change 48 ≤ byte.toNat ∧ byte.toNat ≤ 102
  omega

end

/-! ## Runs on a veeprom that stores -/

section
variable {platform : Platform} {world : ToolWorld} {text rest : List Byte}

/-- The update flag that the veeprom holds. -/
def ToolWorld.flag (world : ToolWorld) : Byte :=
  (world.field veepromUpdateFlagOffset veepromUpdateFlagSize).headD 0

theorem ToolWorld.field_flag : world.field veepromUpdateFlagOffset veepromUpdateFlagSize = [world.flag] := by
  have length : (world.field veepromUpdateFlagOffset veepromUpdateFlagSize).length = 1 :=
    length_field (by decide)
  unfold flag
  obtain ⟨byte, only⟩ := List.length_eq_one_iff.mp length
  rw [only]
  rfl

theorem ToolWorld.flag_writing (flag : Byte) : (world.writing veepromUpdateFlagOffset [flag]).flag = flag := by
  unfold ToolWorld.flag
  rw [show veepromUpdateFlagSize = [flag].length from rfl,
    field_writing (show veepromUpdateFlagOffset + 1 ≤ veepromCapacity by decide)]
  rfl

theorem answerTool_readFlag (world : ToolWorld) (opened : world.opened = true) (byte : Byte) :
    answerTool (.veepromRead veepromUpdateFlagOffset [byte] veepromUpdateFlagSize) world =
      ((0, [world.flag]), world) := by
  rw [answerTool_read opened (by decide) (Nat.le_refl 1), ToolWorld.field_flag]
  rfl

theorem run_updateflagGet (stack : Stack) (opened : world.opened = true) :
    (updateflagGet platform stack).run answerTool world =
      (.ok 0, world.printing (decimal (platform.char world.flag) ++ ascii "\n")) := by
  unfold updateflagGet
  simp [answerTool_readFlag _ opened, ToolWorld.printing]

/-- An accepted argument leaves its low byte. -/
theorem run_updateflagSet_accepted (stack : Stack) (rest : List Byte) (world : ToolWorld)
    (opened : world.opened = true) (clean : IsText text) (accepted : IsLegal text) :
    (updateflagSet platform stack (text ++ 0 :: rest)).run answerTool world =
      (.ok 0, world.writing veepromUpdateFlagOffset [toChar (atoi text)]) := by
  have written : answerTool (.veepromWrite veepromUpdateFlagOffset [toChar (atoi text)] veepromUpdateFlagSize)
      world = (0, world.writing veepromUpdateFlagOffset [toChar (atoi text)]) :=
    answerTool_write opened (by decide) _
  have read := answerTool_readFlag (world.writing veepromUpdateFlagOffset [toChar (atoi text)]) opened
    stack.readFlag
  rw [ToolWorld.flag_writing] at read
  unfold updateflagSet
  rw [cString_append_zero clean, done_bind, if_neg (not_not.mpr (parameterCheck_eq_zero_iff.mpr accepted))]
  simp [written, read]

/-- A rejected one leaves everything but the message. -/
theorem run_updateflagSet_rejected (stack : Stack) (rest : List Byte) (world : ToolWorld) (clean : IsText text)
    (rejected : ¬ IsLegal text) :
    ∃ output, (updateflagSet platform stack (text ++ 0 :: rest)).run answerTool world =
      (.ok (-1), { world with opened := false, output := output }) := by
  unfold updateflagSet
  rw [cString_append_zero clean, done_bind, if_pos (parameterCheck_eq_zero_iff.not.mpr rejected)]
  simp [help]

end

/-! ## What the update script checks -/

/-- If the flag is set to `text`, it is printed as `text`. -/
def PrintsBack (platform : Platform) (text : List Byte) : Prop :=
  ∀ (stack stack' : Stack) (rest : List Byte) (world after : ToolWorld), world.opened = true →
    (updateflagSet platform stack (text ++ 0 :: rest)).run answerTool world = (.ok 0, after) →
      (updateflagGet platform stack').run answerTool after = (.ok 0, after.printing (text ++ ascii "\n"))

/-- `text` is refused, and the veeprom keeps its contents. -/
def Refuses (platform : Platform) (text : List Byte) : Prop :=
  ∀ (stack : Stack) (rest : List Byte) (world : ToolWorld), world.opened = true →
    ∃ after, (updateflagSet platform stack (text ++ 0 :: rest)).run answerTool world = (.ok (-1), after) ∧
      after.store = world.store

section
variable {platform : Platform} {text : List Byte}

theorem printsBack_iff (clean : IsText text) (canonical : IsCanonical text) :
    PrintsBack platform text ↔ digitsValue text ≤ platform.charMax := by
  have accepted := isLegal_of_numeral canonical.1.2
  rw [← platform.decimal_char_atoi_iff canonical]
  constructor
  · intro prints
    have set := @run_updateflagSet_accepted platform text .zero [] .zero rfl clean accepted
    have printed := prints .zero .zero [] _ _ rfl set
    rw [run_updateflagGet .zero (by exact rfl), ToolWorld.flag_writing] at printed
    have output := congrArg (fun result => result.2.output) printed
    simpa [ToolWorld.printing] using output
  · intro same stack stack' rest world after opened set
    rw [run_updateflagSet_accepted stack rest world opened clean accepted] at set
    cases set
    rw [run_updateflagGet stack' (by exact opened), ToolWorld.flag_writing, same]

theorem refuses_iff (clean : IsText text) : Refuses platform text ↔ ¬ IsLegal text := by
  constructor
  · intro refuses accepted
    obtain ⟨after, set, _⟩ := refuses .zero [] .zero rfl
    rw [run_updateflagSet_accepted .zero [] .zero rfl clean accepted] at set
    cases set
  · intro rejected stack rest world _
    obtain ⟨output, set⟩ := run_updateflagSet_rejected stack rest world clean rejected
    exact ⟨_, set, rfl⟩

/-- A canonical numeral is printed back and anything but a numeral is refused, if and only
if the numeral fits a `char` of the platform and what is no numeral has a character outside
`'0'` to `'f'`. -/
theorem updateflag_checked_iff (platform : Platform) (clean : IsText text) :
    ((IsCanonical text → PrintsBack platform text) ∧ (¬ IsNumeral text → Refuses platform text)) ↔
      (IsCanonical text → digitsValue text ≤ platform.charMax) ∧ (¬ IsNumeral text → ¬ IsLegal text) := by
  rw [refuses_iff clean]
  refine and_congr_left' ?_
  exact forall_congr' (printsBack_iff clean)

end

theorem updateflag_checked_iff_200 :
    (IsCanonical (ascii "200") → PrintsBack arm64 (ascii "200")) ∧
      (¬ IsNumeral (ascii "200") → Refuses arm64 (ascii "200")) :=
  (updateflag_checked_iff arm64 (by decide)).mpr ⟨by decide, by decide⟩

/-- 256 is stored as 0 wherever the tool runs, and the verification does not notice. -/
theorem not_printsBack_256 :
    ¬ ∃ platform, (IsCanonical (ascii "256") → PrintsBack platform (ascii "256")) ∧
      (¬ IsNumeral (ascii "256") → Refuses platform (ascii "256")) := by
  rintro ⟨platform, prints, _⟩
  have canonical : IsCanonical (ascii "256") := by decide
  have fits := (printsBack_iff (by decide) canonical).mp (prints canonical)
  have value : digitsValue (ascii "256") = 256 := by decide
  have largest := platform.charMax_le
  omega

end KernelLearning.OtaTool
