import KernelLearning.CSemantics.GetOpt
import KernelLearning.OtaTool.Interface
import KernelLearning.Veeprom.Library

/-!
# The commands of `ota_tool`

The functions of `ota_tool.c`.  What an uninitialised object holds is a parameter, and whether
`char` is signed.
-/

namespace KernelLearning.OtaTool

open KernelLearning.Bytes KernelLearning.CSemantics KernelLearning.Interaction KernelLearning.Veeprom
open KernelLearning.Interaction.Program

def longopts : List LongOption :=
  [⟨ascii "updateflag", false, 'u'⟩, ⟨ascii "resetreason", false, 'r'⟩]

def shortops : List Char := "hgs:".toList

/-- The uninitialised local objects, by the function they belong to. -/
structure Stack where
  /-- `para` of `main`. -/
  para : List Byte
  /-- `flag` of `updateflag_get`. -/
  flag : Byte
  /-- `read_flag` of `updateflag_set`. -/
  readFlag : Byte
  /-- `buffer` of `resetreason_para_check`. -/
  checkBuffer : List Byte
  /-- `buffer` of `resetreason_read`. -/
  readBuffer : List Byte
  /-- `buffer` of `resetreason_write`. -/
  writeBuffer : List Byte
  para_length : para.length = 32
  checkBuffer_length : checkBuffer.length = 64
  readBuffer_length : readBuffer.length = 32
  writeBuffer_length : writeBuffer.length = 32

/-- A stack of zeros. -/
def Stack.zero : Stack where
  para := List.replicate 32 0
  flag := 0
  readFlag := 0
  checkBuffer := List.replicate 64 0
  readBuffer := List.replicate 32 0
  writeBuffer := List.replicate 32 0
  para_length := List.length_replicate
  checkBuffer_length := List.length_replicate
  readBuffer_length := List.length_replicate
  writeBuffer_length := List.length_replicate

/-- The string in an object, when a function reads it. -/
def cString (object : List Byte) : Tool (List Byte) :=
  match stringAt object with
  | none => .stuck .unterminated
  | some text => return text

def help : Tool Unit := do
  Tool.printf (ascii "Usage: ota_tool [Options] [sg] <values>\n")
  Tool.printf (ascii "Example: \n")
  Tool.printf (ascii "        ota_tool --resetreason -s normal\n")
  Tool.printf (ascii "Options: \n")
  Tool.printf (ascii "         --resetreason  system reset reason\n")
  Tool.printf (ascii "         --updateflag   system upgrade flag\n")
  Tool.printf (ascii "sg: \n")
  Tool.printf (ascii "         -s set system flag\n")
  Tool.printf (ascii "         -g get system flag\n")

def updateflagGet (platform : Platform) (stack : Stack) : Tool Int := do
  let (ret, flag) ← Tool.veepromRead veepromUpdateFlagOffset [stack.flag] veepromUpdateFlagSize
  if ret < 0 then
    Tool.perror (ascii "read veeprom failed!\n")
    Tool.veepromExit
    return -1
  Tool.printf (decimal (platform.char (flag.headD 0)) ++ ascii "\n")
  return 0

def updateflagSet (platform : Platform) (stack : Stack) (flag : List Byte) : Tool Int := do
  let text ← cString flag
  if parameterCheck platform text ≠ 0 then
    Tool.perror (ascii "the paramter %s is illegal !\n")
    help
    Tool.veepromExit
    return -1
  let setFlag := toChar (atoi text)
  let ret ← Tool.veepromWrite veepromUpdateFlagOffset [setFlag] veepromUpdateFlagSize
  if ret < 0 then
    Tool.perror (ascii "write eeprom failed!\n")
    Tool.veepromExit
    return -1
  let (ret, readFlag) ← Tool.veepromRead veepromUpdateFlagOffset [stack.readFlag] veepromUpdateFlagSize
  if ret < 0 then
    Tool.perror (ascii "read eeprom failed!\n")
    Tool.veepromExit
    return -1
  if setFlag ≠ readFlag.headD 0 then
    Tool.perror (ascii "verify failed!\n")
    Tool.veepromExit
    return -1
  return 0

def resetReasons : List String := ["normal", "recovery", "uboot", "boot", "system", "all"]

def resetreasonParaCheck (stack : Stack) (para : List Byte) : Tool Int :=
  match strcpy stack.checkBuffer para with
  | none => .stuck .checkBuffer
  | some buffer =>
    if resetReasons.all fun reason => strcmp buffer (ascii reason ++ [0]) ≠ some 0 then do
      Tool.perror (ascii "parameter  is illegal!\n")
      return -1
    else return 0

def resetreasonRead (stack : Stack) : Tool Int := do
  let (ret, buffer) ← Tool.veepromRead veepromResetReasonOffset stack.readBuffer veepromResetReasonSize
  if ret < 0 then
    Tool.perror (ascii "read veerom failed!\n")
    return -1
  let text ← cString buffer
  Tool.printf (text ++ ascii "\n")
  return 0

def resetreasonWrite (stack : Stack) (para : List Byte) : Tool Int := do
  let ret ← resetreasonParaCheck stack para
  if ret < 0 then return -1
  let ret ← Tool.veepromWrite veepromResetReasonOffset para veepromResetReasonSize
  if ret < 0 then
    Tool.perror (ascii "write veeprom failed!\n")
    return -1
  let (ret, buffer) ← Tool.veepromRead veepromResetReasonOffset stack.writeBuffer veepromResetReasonSize
  if ret < 0 then
    Tool.perror (ascii "read veeprom failed!\n")
    return -1
  match strcmp buffer para with
  | none => .stuck .unterminated
  | some order =>
    if order ≠ 0 then
      Tool.perror (ascii "verify failed!\n")
      return -1
    return 0

/-- The `switch` of `main`; there is no `default`. -/
def handleOption (functionIndex : Nat) (para : List Byte) : Opt → Except ToolFault (Nat × List Byte)
  | .found 'u' _ => .ok (functionIndex ||| 0x00, para)
  | .found 'r' _ => .ok (functionIndex ||| 0x10, para)
  | .found 's' optarg =>
    match strcpy para (optarg ++ [0]) with
    | none => .error .para
    | some para => .ok (functionIndex ||| 0x01, para)
  | .found 'g' _ => .ok (functionIndex ||| 0x00, para)
  | _ => .ok (functionIndex, para)

/-- The `while` loop of `main`. -/
def handleOptions (functionIndex : Nat) (para : List Byte) : List Opt → Except ToolFault (Nat × List Byte)
  | [] => .ok (functionIndex, para)
  | opt :: opts =>
    match handleOption functionIndex para opt with
    | .error fault => .error fault
    | .ok (functionIndex, para) => handleOptions functionIndex para opts

def dispatch (platform : Platform) (stack : Stack) (functionIndex : Nat) (para : List Byte) : Tool Int :=
  if functionIndex = 0x00 then updateflagGet platform stack
  else if functionIndex = 0x01 then updateflagSet platform stack para
  else if functionIndex = 0x10 then resetreasonRead stack
  else if functionIndex = 0x11 then resetreasonWrite stack para
  else return 0

/-- `main`; `args` is `argv` without its first element. -/
def toolMain (platform : Platform) (stack : Stack) (args : List (List Byte)) : Tool Int := do
  let ret ← Tool.veepromInit
  if ret < 0 then
    Tool.printf (ascii "veeprom_init error\n")
    return -1
  if args.length + 1 < 2 then
    help
    return -1
  let (functionIndex, para) ← attempt (handleOptions 0x00 stack.para (getoptLong shortops longopts args))
  let _ ← dispatch platform stack functionIndex para
  Tool.veepromExit
  return 0

/-! ## The check of a reset reason -/

/-- `value` is one of the six reasons. -/
def IsResetReason (value : List Byte) : Prop := ∃ reason ∈ resetReasons, value = ascii reason

instance (value : List Byte) : Decidable (IsResetReason value) :=
  inferInstanceAs (Decidable (∃ reason ∈ resetReasons, value = ascii reason))

section
variable {stack : Stack} {value rest : List Byte}

theorem cString_append_zero (clean : IsText value) (rest : List Byte) :
    cString (value ++ 0 :: rest) = .done value := by
  unfold cString
  rw [stringAt_append_zero clean]
  rfl

theorem isText_of_resetReason {reason : String} (member : reason ∈ resetReasons) : IsText (ascii reason) := by
  revert reason
  decide

theorem strcmp_reason_eq_zero_iff (clean : IsText value) {reason : String} (member : reason ∈ resetReasons) :
    strcmp (value ++ 0 :: rest) (ascii reason ++ [0]) = some 0 ↔ value = ascii reason := by
  obtain ⟨order, compared, equal⟩ := strcmp_eq_zero_iff clean (isText_of_resetReason member) rest []
  rw [compared, Option.some.injEq, equal]

theorem resetreasonParaCheck_eq (clean : IsText value) (fits : value.length < 64) :
    resetreasonParaCheck stack (value ++ 0 :: rest) =
      if IsResetReason value then .done 0
      else Tool.perror (ascii "parameter  is illegal!\n") >>= fun _ => .done (-1) := by
  unfold resetreasonParaCheck
  rw [strcpy_of_fits clean rest (by rw [stack.checkBuffer_length]; exact fits)]
  dsimp only
  have noReason : (resetReasons.all fun reason =>
      strcmp (value ++ 0 :: stack.checkBuffer.drop (value.length + 1)) (ascii reason ++ [0]) ≠ some 0) =
        !decide (IsResetReason value) := by
    rw [Bool.eq_iff_iff, List.all_eq_true, Bool.not_eq_true', decide_eq_false_iff_not]
    unfold IsResetReason
    constructor
    · rintro differ ⟨reason, member, equal⟩
      have differs := differ reason member
      rw [decide_eq_true_eq] at differs
      exact differs ((strcmp_reason_eq_zero_iff clean member).mpr equal)
    · intro none reason member
      rw [decide_eq_true_eq]
      intro equal
      exact none ⟨reason, member, (strcmp_reason_eq_zero_iff clean member).mp equal⟩
  rw [noReason]
  by_cases isReason : IsResetReason value <;> simp [isReason]

end

end KernelLearning.OtaTool
