import KernelLearning.OtaTool.ResetReason
import KernelLearning.OtaTool.UpdateFlag

/-!
# Which bytes an argument vector changes

`main` turns the options into bits and the bits into one of four commands.  It has no
`default` case, so an option it does not know changes nothing about what it does.
-/

namespace KernelLearning.OtaTool

open KernelLearning.Bytes KernelLearning.CSemantics KernelLearning.Interaction KernelLearning.Veeprom
open KernelLearning.Interaction.Program

/-- The two settings of the tool, each a field of the veeprom. -/
inductive Setting where
  | updateflag
  | resetreason
  deriving DecidableEq, Repr

namespace Setting

def offset : Setting → Nat
  | .updateflag => veepromUpdateFlagOffset
  | .resetreason => veepromResetReasonOffset

def size : Setting → Nat
  | .updateflag => veepromUpdateFlagSize
  | .resetreason => veepromResetReasonSize

/-- The `function_index` under which the setting is written. -/
def index : Setting → Nat
  | .updateflag => 0x01
  | .resetreason => 0x11

/-- The check that stands before the write. -/
def Accepts : Setting → List Byte → Prop
  | .updateflag, value => IsLegal value
  | .resetreason, value => IsResetReason value

instance (setting : Setting) (value : List Byte) : Decidable (setting.Accepts value) := by
  cases setting
  · exact inferInstanceAs (Decidable (IsLegal value))
  · exact inferInstanceAs (Decidable (IsResetReason value))

end Setting

/-! ## What the options say -/

def setValue : Opt → Option (List Byte)
  | .found 's' optarg => some optarg
  | _ => none

/-- The arguments of `-s`. -/
def setValues (opts : List Opt) : List (List Byte) := opts.filterMap setValue

def namesSetting : Opt → Setting → Bool
  | .found 'u' _, .updateflag | .found 'r' _, .resetreason => true
  | _, _ => false

def names (opts : List Opt) (setting : Setting) : Bool := opts.any (namesSetting · setting)

/-- The options ask for a change of the setting: `-s`, the setting and no other one, and
nothing that the tool does not define. -/
structure AskFor (opts : List Opt) (setting : Setting) : Prop where
  set : setValues opts ≠ []
  named : names opts setting = true
  only : ∀ other, names opts other = true → other = setting
  defined : Opt.unknown ∉ opts

/-- The setting that `main` writes when there is an `-s`. -/
def selected (opts : List Opt) : Setting :=
  if names opts .resetreason then .resetreason else .updateflag

/-! ## The options of `main` -/

/-- The bits that an option sets in `function_index`. -/
def indexBits (opt : Opt) : Nat :=
  (if namesSetting opt .resetreason then 0x10 else 0x00) ||| (if (setValue opt).isSome then 0x01 else 0x00)

def finalIndex (opts : List Opt) : Nat :=
  (if names opts .resetreason then 0x10 else 0x00) ||| (if setValues opts = [] then 0x00 else 0x01)

theorem finalIndex_cons (opt : Opt) (opts : List Opt) :
    finalIndex (opt :: opts) = indexBits opt ||| finalIndex opts := by
  unfold finalIndex indexBits names setValues
  rw [List.any_cons, List.filterMap_cons]
  cases namesSetting opt .resetreason <;> cases opts.any (namesSetting · .resetreason) <;>
    cases setValue opt <;> by_cases none : opts.filterMap setValue = [] <;> simp [none]

/-- One option: `-s` copies its argument, and all set their bits. -/
theorem handleOption_eq (functionIndex : Nat) (para : List Byte) (opt : Opt) :
    handleOption functionIndex para opt =
      match setValue opt with
      | none => .ok (functionIndex ||| indexBits opt, para)
      | some optarg =>
        match strcpy para (optarg ++ [0]) with
        | none => .error .para
        | some para => .ok (functionIndex ||| indexBits opt, para) := by
  unfold handleOption
  split
  · simp [setValue, indexBits, namesSetting]
  · simp [setValue, indexBits, namesSetting]
  · rename_i optarg
    have bits : indexBits (.found 's' optarg) = 0x01 := by simp [indexBits, namesSetting, setValue]
    rw [bits]
    cases copied : strcpy para (optarg ++ [0]) <;> simp [setValue, copied]
  · simp [setValue, indexBits, namesSetting]
  · simp_all [setValue, indexBits, namesSetting]

/-- The string that `para` holds, if there was an `-s`. -/
def Holds (para : List Byte) (value : Option (List Byte)) : Prop :=
  ∀ text ∈ value, ∃ rest, para = text ++ 0 :: rest

theorem getLast?_setValues_cons (opt : Opt) (opts : List Opt) (earlier : Option (List Byte)) :
    (setValues (opt :: opts)).getLast?.or earlier =
      (setValues opts).getLast?.or ((setValue opt).or earlier) := by
  unfold setValues
  rw [List.filterMap_cons]
  cases setValue opt with
  | none => rfl
  | some text => cases last : (opts.filterMap setValue).getLast? <;> simp [List.getLast?_cons, last]

theorem setValue_isText {opt : Opt} {value : List Byte} (clean : opt.IsText)
    (found : setValue opt = some value) : IsText value := by
  unfold setValue at found
  split at found
  · cases found
    exact clean
  · cases found

theorem mem_setValues_cons {opt : Opt} {opts : List Opt} {value : List Byte} :
    value ∈ setValues (opt :: opts) ↔ setValue opt = some value ∨ value ∈ setValues opts := by
  unfold setValues
  simp [List.mem_filterMap]

theorem length_copied {text para : List Byte} (fits : text.length < para.length) :
    (text ++ 0 :: para.drop (text.length + 1)).length = para.length := by
  simp only [List.length_append, List.length_cons, List.length_drop]
  omega

theorem handleOptions_ok {opts : List Opt} (functionIndex : Nat) (clean : ∀ opt ∈ opts, opt.IsText)
    (short : ∀ value ∈ setValues opts, value.length < 32) {para : List Byte}
    (length : para.length = 32) {earlier : Option (List Byte)} (holds : Holds para earlier) :
    ∃ para', handleOptions functionIndex para opts = .ok (functionIndex ||| finalIndex opts, para') ∧
      para'.length = 32 ∧ Holds para' ((setValues opts).getLast?.or earlier) := by
  induction opts generalizing functionIndex para earlier with
  | nil => exact ⟨para, by simp [handleOptions, finalIndex, names, setValues], length, holds⟩
  | cons opt opts inductionHypothesis =>
    have clean' : ∀ opt ∈ opts, opt.IsText := fun other member => clean other (by simp [member])
    have short' : ∀ value ∈ setValues opts, value.length < 32 := fun value member =>
      short value (mem_setValues_cons.mpr (.inr member))
    rw [handleOptions, handleOption_eq, finalIndex_cons, ← Nat.or_assoc, getLast?_setValues_cons]
    cases value : setValue opt with
    | none => exact inductionHypothesis _ clean' short' length holds
    | some optarg =>
      have fits : optarg.length < para.length := by
        rw [length]
        exact short optarg (mem_setValues_cons.mpr (.inl value))
      simp only [strcpy_of_fits (setValue_isText (clean opt (by simp)) value) [] fits]
      apply inductionHypothesis _ clean' short'
      · rw [length_copied fits, length]
      · intro text same
        cases same
        exact ⟨_, rfl⟩

/-- The loop of `main` over an argument vector. -/
theorem handleOptions_args (stack : Stack) {args : List (List Byte)} (clean : ∀ arg ∈ args, IsText arg)
    (short : ∀ value ∈ setValues (getoptLong shortops longopts args), value.length < 32) :
    ∃ para, handleOptions 0x00 stack.para (getoptLong shortops longopts args) =
        .ok (finalIndex (getoptLong shortops longopts args), para) ∧
      para.length = 32 ∧ Holds para (setValues (getoptLong shortops longopts args)).getLast? := by
  have unset : Holds stack.para none := fun _ impossible => nomatch impossible
  have handled := handleOptions_ok 0x00 (getoptLong_isText clean) short stack.para_length unset
  rwa [Nat.zero_or, Option.or_none] at handled

theorem handleOptions_overflow {opts : List Opt} (clean : ∀ opt ∈ opts, opt.IsText)
    {long : List Byte} (member : long ∈ setValues opts) (overflows : 32 ≤ long.length)
    {functionIndex : Nat} {para : List Byte} (length : para.length = 32) :
    handleOptions functionIndex para opts = .error .para := by
  induction opts generalizing functionIndex para with
  | nil => cases member
  | cons opt opts inductionHypothesis =>
    have clean' : ∀ opt ∈ opts, opt.IsText := fun other member => clean other (by simp [member])
    rw [handleOptions, handleOption_eq]
    rcases mem_setValues_cons.mp member with here | later
    · have clean := setValue_isText (clean opt (by simp)) here
      have full : para.length ≤ long.length := by rw [length]; exact overflows
      simp only [here, strcpy_of_overflows clean [] full]
    · cases value : setValue opt with
      | none => exact inductionHypothesis clean' later length
      | some optarg =>
        have clean := setValue_isText (clean opt (by simp)) value
        by_cases fits : optarg.length < para.length
        · simp only [strcpy_of_fits clean [] fits]
          exact inductionHypothesis clean' later ((length_copied fits).trans length)
        · simp only [strcpy_of_overflows clean [] (Nat.not_lt.mp fits)]

/-! ## What the commands write -/

/-- Only whole settings are read and written, and only these are written. -/
def WritesOnly (allowed : Setting → Prop) : ToolOp → Prop
  | .veepromRead offset buf size =>
    ∃ setting, offset = Setting.offset setting ∧ size = Setting.size setting ∧ setting.size ≤ buf.length
  | .veepromWrite offset buf size =>
    ∃ setting, allowed setting ∧ offset = Setting.offset setting ∧ size = Setting.size setting ∧
      setting.size ≤ buf.length
  | _ => True

/-- The command goes on to write the setting. -/
def Proceeds (opts : List Opt) (setting : Setting) : Prop :=
  setting = selected opts ∧ ∃ value, (setValues opts).getLast? = some value ∧ setting.Accepts value

section
variable {platform : Platform} {stack : Stack} {allowed : Setting → Prop} {value rest : List Byte}

theorem confined_help : Confined (WritesOnly allowed) (· ≠ .para) help := by
  unfold help
  simp [WritesOnly]

theorem confined_cString (object : List Byte) :
    Confined (WritesOnly allowed) (· ≠ .para) (cString object) := by
  unfold cString
  split
  · intro impossible
    cases impossible
  · trivial

theorem confined_readFlag (byte : Byte) : Confined (WritesOnly allowed) (· ≠ .para)
    (Tool.veepromRead veepromUpdateFlagOffset [byte] veepromUpdateFlagSize) :=
  ⟨⟨.updateflag, rfl, rfl, Nat.le_refl 1⟩, fun _ => trivial⟩

theorem confined_readReason {buffer : List Byte} (length : buffer.length = 32) :
    Confined (WritesOnly allowed) (· ≠ .para)
      (Tool.veepromRead veepromResetReasonOffset buffer veepromResetReasonSize) :=
  ⟨⟨.resetreason, rfl, rfl, by rw [length]; decide⟩, fun _ => trivial⟩

theorem confined_updateflagGet : Confined (WritesOnly allowed) (· ≠ .para) (updateflagGet platform stack) := by
  unfold updateflagGet
  apply (confined_readFlag stack.flag).bind
  rintro ⟨ret, flag⟩
  dsimp only
  split <;> simp [WritesOnly]

theorem confined_resetreasonRead : Confined (WritesOnly allowed) (· ≠ .para) (resetreasonRead stack) := by
  unfold resetreasonRead
  apply (confined_readReason stack.readBuffer_length).bind
  rintro ⟨ret, buffer⟩
  dsimp only
  split
  · simp [WritesOnly]
  · exact (confined_cString buffer).bind fun text => by simp [WritesOnly]

theorem confined_updateflagSet (clean : IsText value)
    (accepted : Setting.updateflag.Accepts value → allowed .updateflag) :
    Confined (WritesOnly allowed) (· ≠ .para) (updateflagSet platform stack (value ++ 0 :: rest)) := by
  unfold updateflagSet
  rw [cString_append_zero clean, done_bind]
  split
  · refine Confined.bind (by simp [WritesOnly]) fun _ => confined_help.bind fun _ => ?_
    simp [WritesOnly]
  · rename_i legal
    refine Confined.bind ?_ fun ret => ?_
    · have isLegal := parameterCheck_eq_zero_iff.mp (not_not.mp legal)
      exact ⟨⟨.updateflag, accepted isLegal, rfl, rfl, Nat.le_refl 1⟩, fun _ => trivial⟩
    split
    · simp [WritesOnly]
    · apply (confined_readFlag stack.readFlag).bind
      rintro ⟨ret, readFlag⟩
      dsimp only
      split
      · simp [WritesOnly]
      · split <;> simp [WritesOnly]

theorem confined_resetreasonWrite (para : IsPara value rest)
    (accepted : Setting.resetreason.Accepts value → allowed .resetreason) :
    Confined (WritesOnly allowed) (· ≠ .para) (resetreasonWrite stack (value ++ 0 :: rest)) := by
  unfold resetreasonWrite
  rw [resetreasonParaCheck_eq para.clean para.fits]
  by_cases legal : IsResetReason value
  · rw [if_pos legal, done_bind, if_neg (by decide)]
    refine Confined.bind ?_ fun ret => ?_
    · exact ⟨⟨.resetreason, accepted legal, rfl, rfl, by rw [para.length_eq]; decide⟩, fun _ => trivial⟩
    split
    · simp [WritesOnly]
    · apply (confined_readReason stack.writeBuffer_length).bind
      rintro ⟨ret, buffer⟩
      dsimp only
      split
      · simp [WritesOnly]
      · split
        · intro impossible
          cases impossible
        · split <;> simp [WritesOnly]
  · rw [if_neg legal]
    simp [WritesOnly]

theorem finalIndex_of_unset {opts : List Opt} (unset : setValues opts = []) :
    finalIndex opts = if names opts .resetreason then 0x10 else 0x00 := by
  unfold finalIndex
  cases names opts .resetreason <;> simp [unset]

theorem finalIndex_of_set {opts : List Opt} (set : setValues opts ≠ []) :
    finalIndex opts = (selected opts).index := by
  unfold finalIndex selected
  cases names opts .resetreason <;> simp [set, Setting.index]

/-- `main` writes nothing but the selected setting, and that only when its check accepts
the last `-s`. -/
theorem confined_dispatch {opts : List Opt} (clean : ∀ opt ∈ opts, opt.IsText) {para : List Byte}
    (length : para.length = 32) (holds : Holds para (setValues opts).getLast?) :
    Confined (WritesOnly (Proceeds opts)) (· ≠ .para) (dispatch platform stack (finalIndex opts) para) := by
  cases last : (setValues opts).getLast? with
  | none =>
    rw [finalIndex_of_unset (List.getLast?_eq_none_iff.mp last)]
    cases names opts .resetreason
    · exact confined_updateflagGet
    · exact confined_resetreasonRead
  | some value =>
    rw [last] at holds
    obtain ⟨rest, rfl⟩ := holds value rfl
    have member := List.mem_of_getLast? last
    obtain ⟨opt, among, found⟩ := List.mem_filterMap.mp member
    have text := setValue_isText (clean opt among) found
    rw [finalIndex_of_set (List.ne_nil_of_mem member)]
    cases choice : selected opts with
    | updateflag => exact confined_updateflagSet text fun accepted => ⟨choice.symm, value, last, accepted⟩
    | resetreason =>
      exact confined_resetreasonWrite ⟨text, length⟩ fun accepted => ⟨choice.symm, value, last, accepted⟩

theorem confined_toolMain (platform : Platform) (stack : Stack) {args : List (List Byte)}
    (clean : ∀ arg ∈ args, IsText arg)
    (short : ∀ value ∈ setValues (getoptLong shortops longopts args), value.length < 32) :
    Confined (WritesOnly (Proceeds (getoptLong shortops longopts args))) (· ≠ .para)
      (toolMain platform stack args) := by
  unfold toolMain
  refine Confined.bind (by simp [WritesOnly]) fun ret => ?_
  split
  · simp [WritesOnly]
  split
  · exact confined_help.bind fun _ => trivial
  obtain ⟨para, handled, length, holds⟩ := handleOptions_args stack clean short
  rw [handled, attempt_ok, done_bind]
  exact (confined_dispatch (getoptLong_isText clean) length holds).bind fun _ => by simp [WritesOnly]

/-! ## What a run writes -/

/-- A command that proceeds writes its setting. -/
theorem run_dispatch_proceeds (platform : Platform) (stack : Stack) {opts : List Opt}
    (clean : ∀ opt ∈ opts, opt.IsText) {para : List Byte} (length : para.length = 32)
    (holds : Holds para (setValues opts).getLast?) {setting : Setting} (proceeds : Proceeds opts setting) :
    ∃ byte data, ∀ world : ToolWorld, world.opened = true → ∃ ret,
      (dispatch platform stack (finalIndex opts) para).run answerTool world =
        (.ok ret, world.writing setting.offset (byte :: data)) := by
  obtain ⟨choice, value, last, accepts⟩ := proceeds
  obtain ⟨rest, rfl⟩ := holds value (by rw [last]; rfl)
  have member := List.mem_of_getLast? last
  obtain ⟨opt, among, found⟩ := List.mem_filterMap.mp member
  have text := setValue_isText (clean opt among) found
  rw [finalIndex_of_set (List.ne_nil_of_mem member), ← choice]
  cases setting with
  | updateflag =>
    exact ⟨_, _, fun world opened => ⟨0, run_updateflagSet_accepted stack rest world opened text accepts⟩⟩
  | resetreason =>
    cases data : (value ++ 0 :: rest).take veepromResetReasonSize with
    | nil =>
      have taken := congrArg List.length data
      rw [List.length_take, length] at taken
      cases taken
    | cons byte data' =>
      refine ⟨byte, data', fun world opened => ?_⟩
      rw [← data]
      exact ⟨_, run_resetreasonWrite_accepted stack opened ⟨text, length⟩ accepts⟩

/-- An argument vector with options is not empty. -/
theorem two_le_argc {args : List (List Byte)} {opt : Opt} (member : opt ∈ getoptLong shortops longopts args) :
    ¬ args.length + 1 < 2 := by
  cases args with
  | nil => cases member
  | cons arg args => simp

theorem run_toolMain_proceeds (platform : Platform) (stack : Stack) {args : List (List Byte)}
    (clean : ∀ arg ∈ args, IsText arg)
    (short : ∀ value ∈ setValues (getoptLong shortops longopts args), value.length < 32)
    {setting : Setting} (proceeds : Proceeds (getoptLong shortops longopts args) setting) :
    ∃ byte data, ∀ store, ((toolMain platform stack args).run answerTool ⟨store, false, []⟩).2.store =
      store.write setting.offset (byte :: data) := by
  obtain ⟨para, handled, length, holds⟩ := handleOptions_args stack clean short
  obtain ⟨byte, data, writes⟩ := run_dispatch_proceeds platform stack (getoptLong_isText clean) length holds
    proceeds
  obtain ⟨_, value, last, _⟩ := proceeds
  obtain ⟨opt, member, _⟩ := List.mem_filterMap.mp (List.mem_of_getLast? last)
  refine ⟨byte, data, fun store => ?_⟩
  obtain ⟨ret, wrote⟩ := writes ⟨store, true, []⟩ rfl
  unfold toolMain
  rw [if_neg (two_le_argc member), handled, attempt_ok, done_bind]
  simp [run_bind, wrote, ToolWorld.writing]

theorem run_toolMain_overflow {args : List (List Byte)} (clean : ∀ arg ∈ args, IsText arg)
    {value : List Byte} (member : value ∈ setValues (getoptLong shortops longopts args))
    (overflows : 32 ≤ value.length) (store : Store) :
    ((toolMain platform stack args).run answerTool ⟨store, false, []⟩).1 = .error .para := by
  obtain ⟨opt, among, _⟩ := List.mem_filterMap.mp member
  unfold toolMain
  rw [if_neg (two_le_argc among),
    handleOptions_overflow (getoptLong_isText clean) member overflows stack.para_length]
  simp

end

/-! ## Only what was asked for -/

/-- Outside the setting's field the veeprom is the same. -/
def OnlyField (setting : Setting) (before after : Store) : Prop :=
  ∀ index, index < setting.offset ∨ setting.offset + setting.size ≤ index →
    after.bytes[index]? = before.bytes[index]?

/-- Whatever is in the veeprom and whichever of its calls fail, the tool does not write
past `para`, and it changes no byte but those of a setting that was asked for. -/
def ChangesOnlyAsked (platform : Platform) (stack : Stack) (args : List (List Byte)) : Prop :=
  ∀ store pattern,
    let ended := (toolMain platform stack args).run faultyTool (Faulty.start ⟨store, false, []⟩ pattern)
    ended.1 ≠ .error .para ∧
      (ended.2.world.store = store ∨
        ∃ setting, AskFor (getoptLong shortops longopts args) setting ∧
          OnlyField setting store ended.2.world.store)

section
variable {opts : List Opt} {setting : Setting}

theorem AskFor.selected_eq (asked : AskFor opts setting) : selected opts = setting := by
  unfold selected
  split
  · rename_i named
    exact asked.only _ named
  · rename_i unnamed
    cases setting with
    | updateflag => rfl
    | resetreason => exact (unnamed asked.named).elim

theorem OnlyField.write {before store : Store} (only : OnlyField setting before store) {data : List Byte}
    (small : data.length ≤ setting.size) : OnlyField setting before (store.write setting.offset data) := by
  intro index outside
  rw [← only index outside]
  exact getElem?_overlay_outside (by omega)

theorem faultyTool_store (call : ToolOp) (state : Faulty ToolWorld) :
    (faultyTool call state).2.world.store = state.world.store ∨
      ∃ offset buf size, call = .veepromWrite offset buf size ∧
        (faultyTool call state).2.world.store = state.world.store.write offset.toNat (buf.take size.toNat) := by
  rcases withFailures_world toolFailure answerTool call state with answered | refused
  · unfold faultyTool
    rw [answered]
    exact answerTool_store call state.world
  · exact .inl (congrArg ToolWorld.store refused)

theorem faultyTool_onlyField {before : Store} {call : ToolOp} {state : Faulty ToolWorld}
    (writes : WritesOnly (· = setting) call) (only : OnlyField setting before state.world.store) :
    OnlyField setting before (faultyTool call state).2.world.store := by
  rcases faultyTool_store call state with same | ⟨offset, buf, size, rfl, written⟩
  · rw [same]
    exact only
  · obtain ⟨_, rfl, rfl, rfl, _⟩ := writes
    rw [written, Int.toNat_natCast, Int.toNat_natCast]
    exact only.write (by rw [List.length_take]; omega)

theorem faultyTool_noWrite {call : ToolOp} {state : Faulty ToolWorld}
    (writes : WritesOnly (fun _ => False) call) :
    (faultyTool call state).2.world.store = state.world.store := by
  rcases faultyTool_store call state with same | ⟨offset, buf, size, rfl, _⟩
  · exact same
  · obtain ⟨_, impossible, _⟩ := writes
    exact impossible.elim

theorem WritesOnly.mono {allowed more : Setting → Prop} (weaken : ∀ setting, allowed setting → more setting)
    {call : ToolOp} (writes : WritesOnly allowed call) : WritesOnly more call := by
  cases call with
  | veepromWrite offset buf size =>
    obtain ⟨setting, isAllowed, same⟩ := writes
    exact ⟨setting, weaken setting isAllowed, same⟩
  | _ => trivial

end

theorem ne_succ (byte : Byte) : byte ≠ byte + 1 := by
  intro same
  have values := congrArg UInt8.toNat same
  rw [UInt8.toNat_add] at values
  change byte.toNat = (byte.toNat + 1) % 256 at values
  omega

section
variable {platform : Platform} {stack : Stack} {args : List (List Byte)}

theorem ChangesOnlyAsked.short (clean : ∀ arg ∈ args, IsText arg) (changes : ChangesOnlyAsked platform stack args) :
    ∀ value ∈ setValues (getoptLong shortops longopts args), value.length < 32 := by
  intro value member
  by_contra overflows
  apply (changes (.filled 0) never).1
  unfold faultyTool Faulty.start
  rw [run_withFailures_never]
  exact run_toolMain_overflow clean member (by omega) _

/-- On a veeprom where it shows, a write that was not asked for is a violation. -/
theorem ChangesOnlyAsked.asked (clean : ∀ arg ∈ args, IsText arg) (changes : ChangesOnlyAsked platform stack args)
    {setting : Setting} (proceeds : Proceeds (getoptLong shortops longopts args) setting) :
    AskFor (getoptLong shortops longopts args) setting := by
  obtain ⟨byte, data, writes⟩ := run_toolMain_proceeds platform stack clean (changes.short clean) proceeds
  have written := writes (.filled (byte + 1))
  have ended := (changes (.filled (byte + 1)) never).2
  unfold faultyTool Faulty.start at ended
  rw [run_withFailures_never] at ended
  rcases ended with same | ⟨other, asked, _⟩
  · have inside : setting.offset < veepromCapacity := by cases setting <;> decide
    exact absurd (written.symm.trans same) (Store.write_ne (Store.getElem?_filled _ inside) (ne_succ byte) data)
  · rw [proceeds.1, asked.selected_eq]
    exact asked

theorem changesOnlyAsked_of_asked (clean : ∀ arg ∈ args, IsText arg)
    (short : ∀ value ∈ setValues (getoptLong shortops longopts args), value.length < 32)
    (asked : ∀ setting, Proceeds (getoptLong shortops longopts args) setting →
      AskFor (getoptLong shortops longopts args) setting) : ChangesOnlyAsked platform stack args := by
  intro store pattern
  have confined := confined_toolMain platform stack clean short
  refine ⟨fun overflow => confined.tolerates overflow rfl, ?_⟩
  by_cases proceeds : ∃ setting, Proceeds (getoptLong shortops longopts args) setting
  · obtain ⟨setting, proceeds⟩ := proceeds
    have only : ∀ other, Proceeds (getoptLong shortops longopts args) other → other = setting :=
      fun other proceeds' => proceeds'.1.trans proceeds.1.symm
    refine .inr ⟨setting, asked setting proceeds, ?_⟩
    exact (confined.mono fun _ => WritesOnly.mono only).keeps
      (fun state : Faulty ToolWorld => OnlyField setting store state.world.store)
      (fun _ _ writes kept => faultyTool_onlyField writes kept) (fun _ _ => rfl)
  · refine .inl ?_
    exact (confined.mono fun _ => WritesOnly.mono fun other here => proceeds ⟨other, here⟩).keeps
      (fun state : Faulty ToolWorld => state.world.store = store)
      (fun _ _ writes kept => (faultyTool_noWrite writes).trans kept) rfl

/-- The tool keeps to what was asked for if and only if every `-s` fits `para` and a
command that goes on to write is one that was asked for. -/
theorem changesOnlyAsked_iff (clean : ∀ arg ∈ args, IsText arg) :
    ChangesOnlyAsked platform stack args ↔
      (∀ value ∈ setValues (getoptLong shortops longopts args), value.length < 32) ∧
        ∀ setting, Proceeds (getoptLong shortops longopts args) setting →
          AskFor (getoptLong shortops longopts args) setting := by
  constructor
  · intro changes
    exact ⟨changes.short clean, fun setting proceeds => changes.asked clean proceeds⟩
  · rintro ⟨short, asked⟩
    exact changesOnlyAsked_of_asked clean short asked

end

/-! ## Two argument vectors -/

theorem changesOnlyAsked_iff_normal :
    ChangesOnlyAsked arm64 .zero [ascii "--resetreason", ascii "-s", ascii "normal"] := by
  apply (changesOnlyAsked_iff (by decide)).mpr
  have opts : getoptLong shortops longopts [ascii "--resetreason", ascii "-s", ascii "normal"] =
      [.found 'r' [], .found 's' (ascii "normal")] := by decide
  rw [opts]
  refine ⟨by decide, ?_⟩
  rintro setting ⟨rfl, _⟩
  exact ⟨by decide, by decide, by rintro (_ | _) <;> decide, by decide⟩

/-- The scripts pass `--count`, which is unknown, and the update flag is set. -/
theorem not_changesOnlyAsked_count :
    ¬ ChangesOnlyAsked arm64 .zero [ascii "--count", ascii "-s", ascii "1"] := by
  intro changes
  have opts : getoptLong shortops longopts [ascii "--count", ascii "-s", ascii "1"] =
      [.unknown, .found 's' (ascii "1")] := by decide
  have proceeds : Proceeds (getoptLong shortops longopts [ascii "--count", ascii "-s", ascii "1"])
      .updateflag := by
    rw [opts]
    exact ⟨by decide, ascii "1", by decide, by decide⟩
  have asked := changes.asked (by decide) proceeds
  rw [opts] at asked
  exact absurd asked.defined (by decide)

end KernelLearning.OtaTool
