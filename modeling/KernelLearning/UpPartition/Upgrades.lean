import KernelLearning.UpPartition.Script

/-!
# The upgrades

What `upgrade_kernel`, `upgrade_uboot`, `upgrade_system`, `upgrade_all` and the
update of a NOR partition do to a run: when they give a flashing command, and
which failures their exit codes and the result file report.
-/

namespace KernelLearning.UpPartition

open ShellSemantics

/-- The line that `update_img` logs in the end. -/
def successLine : String := otaInfo "update_img success!"

@[simp] theorem successLine_eq_otaInfo (text : String) :
    successLine = otaInfo text ↔ "update_img success!".toList = text.toList := by
  rw [← String.ext_iff]
  exact ⟨otaInfo_injective, congrArg otaInfo⟩

@[simp] theorem otaInfo_eq_successLine (text : String) :
    otaInfo text = successLine ↔ text.toList = "update_img success!".toList := by
  rw [← String.ext_iff]
  exact ⟨otaInfo_injective, congrArg otaInfo⟩

/-- The flashing commands whose exit code is looked at; `path` is where the package was
unpacked. -/
def Checked (path : String) : FlashCommand → Prop
  | .flashcp _ _ | .updateSh _ => True
  | .dd input _ => input = path ++ "/vbmeta.img" ∨ input = path ++ "/boot.img" ∨ input = path ++ "/system.img"
  | _ => False

/-- One of the commands, with its exit code, failed and is looked at. -/
def Failed (path : String) (commands : List (FlashCommand × Nat)) : Prop :=
  ∃ entry ∈ commands, Checked path entry.1 ∧ entry.2 ≠ 0

def flashedEvent (entry : FlashCommand × Nat) : Event := .flashed entry.1 entry.2

/-- A run that gives the flashing `commands`, logs lines of its own and appends `report` to
the result file. -/
structure Upgrade (commands : List (FlashCommand × Nat)) (report : List String) (before after : Shell) : Prop where
  events : after.events = before.events ++ commands.map flashedEvent
  result : after.result = before.result ++ report
  partstatus : after.partstatus = before.partstatus
  updateFlags : after.updateFlags = before.updateFlags
  info : ∃ lines, after.info = before.info ++ lines ∧ successLine ∉ lines

/-- A part of `update_img` as it returns: it gives a flashing command where `writes` says, and
returns 0 only if no checked command failed. -/
def Returned (path : String) (writes : Prop) (before : Shell) (ret : Nat) (after : Shell) : Prop :=
  ∃ commands report, Upgrade commands report before after ∧ (commands ≠ [] ↔ writes) ∧
    (ret = 0 → ¬ Failed path commands)

/-- A part of `update_img` as it ends: a checked command that failed is reported. -/
def Ended (path : String) (writes : Prop) (before after : Shell) : Prop :=
  ∃ commands report, Upgrade commands report before after ∧ (commands ≠ [] ↔ writes) ∧
    (Failed path commands → "2" ∈ report)

/-- The result file got a `2` on top of what it held. -/
def Reported (before after : Shell) : Prop := ∃ report, after.result = before.result ++ report ∧ "2" ∈ report

namespace Upgrade

variable {commands : List (FlashCommand × Nat)} {report : List String} {before after : Shell}

theorem refl {vars : Vars} {progress : List String} : Upgrade [] [] before { before with vars, progress } :=
  ⟨(List.append_nil _).symm, (List.append_nil _).symm, rfl, rfl, [], (List.append_nil _).symm, by simp⟩

/-- Nothing is done but to lines of the log. -/
theorem silent {vars : Vars} {progress lines : List String} (other : successLine ∉ lines) :
    Upgrade [] [] before { before with vars, progress, info := before.info ++ lines } :=
  ⟨(List.append_nil _).symm, (List.append_nil _).symm, rfl, rfl, lines, rfl, other⟩

/-- One flashing command more. -/
theorem flash (upgrade : Upgrade commands report before after) (command : FlashCommand) (code : Nat) :
    Upgrade (commands ++ [(command, code)]) report before
      { after with events := after.events ++ [.flashed command code] } := by
  refine ⟨?_, upgrade.result, upgrade.partstatus, upgrade.updateFlags, upgrade.info⟩
  simp [upgrade.events, flashedEvent]

/-- One line more in the log. -/
theorem printinfo (upgrade : Upgrade commands report before after) {line : String} (other : line ≠ successLine) :
    Upgrade commands report before { after with info := after.info ++ [line] } := by
  obtain ⟨lines, info, rest⟩ := upgrade.info
  refine ⟨upgrade.events, upgrade.result, upgrade.partstatus, upgrade.updateFlags, lines ++ [line], ?_, ?_⟩
  · simp [info]
  · simp [rest, other.symm]

/-- An error that is reported. -/
theorem reportError (upgrade : Upgrade commands report before after) {error : String}
    (other : otaInfo error ≠ successLine) :
    Upgrade commands (report ++ ["2"]) before (after.reportError error) := by
  refine ⟨upgrade.events, ?_, upgrade.partstatus, upgrade.updateFlags, (upgrade.printinfo other).info⟩
  simp [Shell.reportError, upgrade.result]

/-- The variables do not matter. -/
theorem of_vars {vars : Vars} (upgrade : Upgrade commands report { before with vars } after) :
    Upgrade commands report before after :=
  ⟨upgrade.events, upgrade.result, upgrade.partstatus, upgrade.updateFlags, upgrade.info⟩

theorem trans {commands' : List (FlashCommand × Nat)} {report' : List String} {last : Shell}
    (first : Upgrade commands report before after) (second : Upgrade commands' report' after last) :
    Upgrade (commands ++ commands') (report ++ report') before last := by
  obtain ⟨lines, info, other⟩ := first.info
  obtain ⟨lines', info', other'⟩ := second.info
  refine ⟨?_, ?_, second.partstatus.trans first.partstatus, second.updateFlags.trans first.updateFlags,
    lines ++ lines', ?_, ?_⟩
  · simp [second.events, first.events]
  · simp [second.result, first.result]
  · simp [info', info]
  · simp [other, other']

end Upgrade

section After

variable {path : String} {writes : Prop} {report : List String} {before between after : Shell} {ret : Nat}

/-- What was reported before does not matter. -/
theorem Returned.prepend (first : Upgrade [] report before between)
    (returned : Returned path writes between ret after) : Returned path writes before ret after := by
  obtain ⟨commands, report', upgrade, rest⟩ := returned
  exact ⟨commands, report ++ report', first.trans upgrade, rest⟩

theorem Ended.prepend (first : Upgrade [] report before between) (ended : Ended path writes between after) :
    Ended path writes before after := by
  obtain ⟨commands, report', upgrade, wrote, reported⟩ := ended
  exact ⟨commands, report ++ report', first.trans upgrade, wrote, fun failed =>
    List.mem_append_right _ (reported failed)⟩

end After

section Upgrades

variable (host : Host) (shell : Shell)

/-! ## When a partition is written -/

def NorWrites (partition : String) : Prop := (host.mtd partition).isSome

def KernelWrites (path : String) : Prop :=
  isFile host (path ++ "/vbmeta.img") ∧ isFile host (path ++ "/boot.img") ∧ (host.fdisk "boot").isSome ∧
    (host.otaUpmode = "single" ∨ host.otaUpmode = "AB")

def UbootWrites : Prop := host.otaBootmode ≠ "nand_flash" ∧ (host.fdisk "uboot").isSome

def SystemWrites : Prop :=
  (host.otaUpmode = "AB" ∨ host.rootListed = false ∨ host.otaUpmode = "single") ∧ (host.fdisk "system").isSome

/-! ## The functions -/

variable {host shell} in
/-- Where a device is missing, nothing is written and the error is reported. -/
theorem ended_reportError {path error : String} {writes : Prop} (other : otaInfo error ≠ successLine)
    (none : ¬ writes) : Ended path writes shell (shell.reportError error) := by
  refine ⟨[], ["2"], ⟨(List.append_nil _).symm, rfl, rfl, rfl, _, rfl, ?_⟩, by simp [none], by simp⟩
  simpa using other.symm

theorem updateNorPartitionImg_ensures (path file partition : String) :
    Ensures (updateNorPartitionImg host file partition) shell
      (fun ret after => NorWrites host partition ∧ Returned path (NorWrites host partition) shell ret after)
      (fun _ after => Ended path (NorWrites host partition) shell after ∧ Reported shell after) := by
  simp only [updateNorPartitionImg, ensures_bind, ensures_mtdNumberGet, NorWrites]
  cases host.mtd partition with
  | none => exact ⟨ended_reportError (by simp) (by simp), ["2"], rfl, by simp⟩
  | some device =>
    simp only [ensures_get, ensures_printinfo, ensures_flash]
    refine ⟨rfl, _, _, (Upgrade.silent ?_).flash _ _, by simp, ?_⟩
    · simp
    · intro zero
      simp [Failed, Checked, zero]

theorem upgradeUboot_ensures (path : String) (notNor : host.otaBootmode ≠ "nor_flash")
    (unpacked : shell.vars.upgradeFilePath = path) :
    Ensures (upgradeUboot host) shell (Returned path (UbootWrites host) shell)
      (fun _ after => Ended path (UbootWrites host) shell after) := by
  simp only [upgradeUboot, ensures_bind, ensures_get, ensures_ite, if_neg notNor]
  split
  case isTrue nand =>
    -- on NAND the volume is looked up and nothing is written
    simp only [ensures_ubiNumberGet, UbootWrites]
    cases host.ubi "uboot" with
    | none => exact ended_reportError (by simp) (by simp [nand])
    | some device =>
      simp only [ensures_pure, ne_eq, not_true_eq_false, if_false]
      exact ⟨[], [], Upgrade.refl, by simp [nand], by simp [Failed]⟩
  case isFalse notNand =>
    simp only [ensures_mmcPartNumber, UbootWrites]
    cases host.fdisk "uboot" with
    | none => exact ended_reportError (by simp) (by simp)
    | some partition =>
      simp only [ensures_printinfo, ensures_flash, ensures_pure, ne_eq, not_true_eq_false, if_false, unpacked]
      split
      case isTrue single =>
        refine ⟨[(_, _), (_, _)], [], ⟨List.append_assoc _ _ _, (List.append_nil _).symm, rfl, rfl, _, rfl, ?_⟩,
          by simp [notNand], ?_⟩
        · simp
        · simp [Failed, Checked]
      case isFalse =>
        refine ⟨_, _, (Upgrade.silent ?_).flash _ _, by simp [notNand], ?_⟩
        · simp
        · simp [Failed, Checked]

/-- `ret1` and `ret2` are the exit codes of the two commands that write the kernel. -/
theorem emmcKernel_ensures (path : String) :
    Ensures (emmcKernel host path) shell
      (fun rets after => ((host.fdisk "boot").isSome ∧ (host.otaUpmode = "single" ∨ host.otaUpmode = "AB")) ∧
        ∃ device device', Upgrade [(.dd (path ++ "/vbmeta.img") device, rets.1),
          (.dd (path ++ "/boot.img") device', rets.2)] [] shell after)
      (fun _ after => ¬ ((host.fdisk "boot").isSome ∧ (host.otaUpmode = "single" ∨ host.otaUpmode = "AB")) ∧
        Upgrade [] ["2"] shell after) := by
  simp only [emmcKernel, ensures_bind, ensures_mmcPartNumber]
  cases host.fdisk "boot" with
  | none =>
    refine ⟨by simp, (List.append_nil _).symm, rfl, rfl, rfl, _, rfl, ?_⟩
    simp
  | some partition =>
    simp only [ensures_get, ensures_vbmetaId, ensures_flash, ensures_pure]
    have written : ∀ first second : FlashCommand × Nat, ∀ shell' : Shell,
        shell' = { shell with
          vars := { shell.vars with partitionId := partition }
          events := shell.events ++ [flashedEvent first] ++ [flashedEvent second] } →
        Upgrade [first, second] [] shell shell' := by
      intro first second shell' reached
      subst reached
      exact ⟨List.append_assoc _ _ _, (List.append_nil _).symm, rfl, rfl, [], (List.append_nil _).symm, by simp⟩
    split
    case isTrue single => exact ⟨⟨rfl, .inl single⟩, _, _, written _ _ _ rfl⟩
    case isFalse notSingle =>
      split
      case isTrue ab => exact ⟨⟨rfl, .inr ab⟩, _, _, written _ _ _ rfl⟩
      case isFalse notAb =>
        refine ⟨by simp [notSingle, notAb], (List.append_nil _).symm, rfl, rfl, rfl, _, rfl, ?_⟩
        simp

theorem upgradeKernel_ensures (path : String) (unpacked : shell.vars.upgradeFilePath = path) :
    Ensures (upgradeKernel host) shell (Returned path (KernelWrites host path) shell)
      (fun _ after => Ended path (KernelWrites host path) shell after) := by
  -- the boot mode is never the word it is compared with
  have notNor : ("ota_bootmode" = "nor_flash") = False := by simp
  have notNand : ("ota_bootmode" = "nand_flash") = False := by simp
  simp only [upgradeKernel, ensures_bind, ensures_get, ensures_ite, unpacked, ensures_printinfo,
    ensures_appendResult, ensures_throw, ensures_pure, notNor, notNand, if_false, KernelWrites]
  split
  case isTrue missing =>
    refine ended_reportError (by simp) ?_
    intro writes
    simp [writes.1, writes.2.1] at missing
  case isFalse present =>
    simp only [Bool.or_eq_true, Bool.not_eq_true', not_or, Bool.not_eq_false] at present
    refine (emmcKernel_ensures host shell path).mono ?_ ?_
    · intro rets after ensured
      obtain ⟨found, device, device', upgrade⟩ := ensured
      obtain ⟨ret1, ret2⟩ := rets
      simp only
      split
      case isTrue => exact ⟨_, _, upgrade.reportError (by simp), by simp [present, found], by simp⟩
      case isFalse fine =>
        simp only [ne_eq, Bool.or_eq_true, decide_eq_true_eq, not_or, Decidable.not_not] at fine
        exact ⟨_, _, upgrade, by simp [present, found], by simp [Failed, fine]⟩
    · intro _ after ensured
      obtain ⟨missing, upgrade⟩ := ensured
      refine ⟨_, _, upgrade, ?_, by simp⟩
      simp only [ne_eq, not_true_eq_false, false_iff]
      exact fun writes => missing writes.2.2

theorem ddSystem_ensures (path : String) :
    Ensures (ddSystem host path) shell (Returned path (host.fdisk "system").isSome shell)
      (fun _ after => Ended path (host.fdisk "system").isSome shell after) := by
  simp only [ddSystem, ensures_bind, ensures_mmcPartNumber]
  cases host.fdisk "system" with
  | none => exact ended_reportError (by simp) (by simp)
  | some partition =>
    simp only [ensures_get, ensures_printinfo, ensures_flash, ensures_ite, ensures_appendResult, ensures_throw,
      ensures_bind, ensures_pure]
    split
    case isTrue =>
      refine ⟨_, _, ((Upgrade.silent ?_).flash _ _).reportError ?_, by simp, by simp⟩
      · simp
      · simp
    case isFalse fine =>
      refine ⟨_, _, (Upgrade.silent ?_).flash _ _, by simp, ?_⟩
      · simp
      · simp [Failed, Decidable.not_not.mp fine]

theorem busyboxDdSystem_ensures (path : String) :
    Ensures (busyboxDdSystem host path) shell (Returned path (host.fdisk "system").isSome shell)
      (fun _ after => Ended path (host.fdisk "system").isSome shell after) := by
  simp only [busyboxDdSystem, ensures_bind, ensures_mmcPartNumber]
  cases host.fdisk "system" with
  | none => exact ended_reportError (by simp) (by simp)
  | some partition =>
    simp only [ensures_get, ensures_printinfo, ensures_flash, ensures_pure]
    refine ⟨_, _, (Upgrade.silent ?_).flash _ _, by simp, by simp [Failed, Checked]⟩
    simp

/-- Where it is set, `board_status` only says once more that `/dev/root` is not listed. -/
theorem upgradeSystem_ensures (path : String) (notNor : host.otaBootmode ≠ "nor_flash")
    (unpacked : shell.vars.upgradeFilePath = path) (unset : shell.vars.boardStatus = "") :
    Ensures (upgradeSystem host) shell (Returned path (SystemWrites host) shell)
      (fun _ after => Ended path (SystemWrites host) shell after) := by
  simp only [upgradeSystem, ensures_bind, ensures_get, ensures_ite, ensures_setVars, if_neg notNor, unpacked,
    unset, SystemWrites]
  cases host.rootListed with
  | false =>
    simp only [Bool.not_false, if_true, decide_true, Bool.or_true, true_or, or_true, true_and]
    refine (ddSystem_ensures host _ path).mono ?_ ?_
    · intro ret after ensured
      obtain ⟨commands, report, upgrade, rest⟩ := ensured
      exact ⟨commands, report, upgrade.of_vars, rest⟩
    · intro _ after ensured
      obtain ⟨commands, report, upgrade, rest⟩ := ensured
      exact ⟨commands, report, upgrade.of_vars, rest⟩
  | true =>
    simp only [Bool.not_true, Bool.false_eq_true, if_false, Bool.or_eq_true, decide_eq_true_eq, false_or,
      Bool.true_eq_false, show ¬ ("" = "recovery") by simp, or_false]
    by_cases ab : host.otaUpmode = "AB"
    · simp only [ab, if_true, true_or, true_and]
      exact ddSystem_ensures host shell path
    · by_cases single : host.otaUpmode = "single"
      · simp only [single, if_true, or_true, true_and]
        exact busyboxDdSystem_ensures host shell path
      · simp only [if_neg ab, if_neg single, ensures_pure]
        exact ⟨[], [], Upgrade.refl, by simp [ab, single], by simp [Failed]⟩

theorem upgradeAll_ensures (path : String) :
    Ensures (upgradeAll host) shell (Returned path (host.otaBootmode ≠ "nor_flash") shell)
      (fun _ after => Ended path (host.otaBootmode ≠ "nor_flash") shell after) := by
  simp only [upgradeAll, ensures_bind, ensures_ite, ensures_throw, ensures_get, ensures_printprogress,
    ensures_printinfo, ensures_flash, show ¬ ("" = "nand_flash") by simp, if_false]
  split
  case isTrue nor => exact ⟨[], [], Upgrade.refl, by simp [nor], by simp [Failed]⟩
  case isFalse notNor =>
    have written : ∀ file code, ∀ shell' : Shell,
        shell'.events = shell.events ++ [.flashed (.busyboxDd file "/dev/mmcblk0") code] →
        shell'.result = shell.result → shell'.partstatus = shell.partstatus →
        shell'.updateFlags = shell.updateFlags →
        shell'.info = shell.info ++ [otaInfo ("dd if=" ++ file ++ " of=/dev/mmcblk0 bs=512")] ++
          [otaInfo "100%"] →
        Upgrade [(.busyboxDd file "/dev/mmcblk0", code)] [] shell shell' := by
      intro file code shell' events result partstatus updateFlags info
      refine ⟨events, by simp [result], partstatus, updateFlags, _, info.trans (List.append_assoc _ _ _), ?_⟩
      simp
    cases host.reboot with
    | none => exact ⟨_, _, written _ _ _ rfl rfl rfl rfl rfl, by simp [notNor], by simp [Failed, Checked]⟩
    | some code => exact ⟨_, _, written _ _ _ rfl rfl rfl rfl rfl, by simp [notNor], by simp [Failed, Checked]⟩

/-! ## `update_img` -/

/-- When `update_img` gives a flashing command. -/
def ImgWrites (path partition : String) : Prop :=
  if partition = "all" then host.otaBootmode ≠ "nor_flash"
  else if host.otaBootmode = "nor_flash" then isFile host (path ++ "/tmpdir/update.sh") ∨ NorWrites host partition
  else if partition = "uboot" then UbootWrites host
  else if partition = "boot" then KernelWrites host path
  else if partition = "system" then SystemWrites host
  else False

/-- The names that `update_img` upgrades on eMMC and NAND. -/
def supported : List String := ["all", "uboot", "boot", "system"]

/-- On eMMC and NAND the name of the partition is tested after its look-up. -/
theorem upgradePartition_ensures (path partition : String) (notNor : host.otaBootmode ≠ "nor_flash")
    (notAll : partition ≠ "all") (unpacked : shell.vars.upgradeFilePath = path)
    (unset : shell.vars.boardStatus = "") :
    Ensures (upgradePartition host partition) shell
      (fun ret after => partition ∈ supported ∧ Returned path (ImgWrites host path partition) shell ret after)
      (fun _ after => Ended path (ImgWrites host path partition) shell after ∧
        (partition ∉ supported → Reported shell after)) := by
  simp only [upgradePartition, ImgWrites, if_neg notAll, if_neg notNor]
  by_cases uboot : partition = "uboot"
  · simp only [if_pos uboot]
    exact (upgradeUboot_ensures host shell path notNor unpacked).mono
      (fun _ _ returned => ⟨by simp [uboot, supported], returned⟩)
      (fun _ _ ended => ⟨ended, fun other => absurd (by simp [uboot, supported]) other⟩)
  by_cases boot : partition = "boot"
  · simp only [if_neg uboot, if_pos boot]
    exact (upgradeKernel_ensures host shell path unpacked).mono
      (fun _ _ returned => ⟨by simp [boot, supported], returned⟩)
      (fun _ _ ended => ⟨ended, fun other => absurd (by simp [boot, supported]) other⟩)
  by_cases system : partition = "system"
  · simp only [if_neg uboot, if_neg boot, if_pos system]
    exact (upgradeSystem_ensures host shell path notNor unpacked unset).mono
      (fun _ _ returned => ⟨by simp [system, supported], returned⟩)
      (fun _ _ ended => ⟨ended, fun other => absurd (by simp [system, supported]) other⟩)
  · simp only [if_neg uboot, if_neg boot, if_neg system]
    exact ⟨ended_reportError (by simp) (by simp), fun _ => ⟨["2"], rfl, by simp⟩⟩

/-- A name that `update_img` does not upgrade: on NOR one that no MTD device has, where the
package has no `update.sh`.  Not `all`, which NOR does not support either: there `upgrade_all`
appends its `2` to the file `$update_file`, a name that is not set. -/
def Unsupported (path partition : String) : Prop :=
  if host.otaBootmode = "nor_flash" then
    partition ≠ "all" ∧ isFile host (path ++ "/tmpdir/update.sh") = false ∧ ¬ NorWrites host partition
  else partition ∉ supported

theorem writeImg_ensures (path partition : String) (unpacked : shell.vars.upgradeFilePath = path)
    (unset : shell.vars.boardStatus = "") (chosen : shell.vars.partition = partition) :
    Ensures (writeImg host) shell
      (fun ret after => ¬ Unsupported host path partition ∧
        Returned path (ImgWrites host path partition) shell ret after)
      (fun _ after => Ended path (ImgWrites host path partition) shell after ∧
        (Unsupported host path partition → Reported shell after)) := by
  simp only [writeImg, ensures_bind, ensures_get, ensures_ite, ensures_commandSubstitution, unpacked, chosen,
    leaves_mmcPartNumber]
  -- the branches of `write_img`: every partition, NOR flash with or without a script, one partition
  by_cases all : partition = "all"
  · have known : ¬ Unsupported host path partition := by simp [Unsupported, all, supported]
    simp only [if_pos all]
    refine (upgradeAll_ensures host shell path).mono ?_ ?_
    · intro ret after returned
      exact ⟨known, by simpa [ImgWrites, all] using returned⟩
    · intro ending after ended
      exact ⟨by simpa [ImgWrites, all] using ended, fun other => absurd other known⟩
  simp only [if_neg all]
  by_cases nor : host.otaBootmode = "nor_flash"
  · simp only [if_pos nor]
    have writes : ImgWrites host path partition =
        (isFile host (path ++ "/tmpdir/update.sh") ∨ NorWrites host partition) := by
      simp [ImgWrites, all, nor]
    rw [writes, Unsupported, if_pos nor]
    by_cases script : isFile host (path ++ "/tmpdir/update.sh") = true
    · simp only [script, if_true, ensures_flash, true_or]
      refine ⟨by simp, _, _, Upgrade.refl.flash _ _, by simp, fun zero => ?_⟩
      simp [Failed, zero]
    · simp only [script, if_false, false_or, Bool.false_eq_true]
      refine (updateNorPartitionImg_ensures host shell path host.image partition).mono ?_ ?_
      · intro ret after ensured
        obtain ⟨written, returned⟩ := ensured
        exact ⟨fun unsupported => unsupported.2.2 written, returned⟩
      · intro ending after ensured
        obtain ⟨ended, reported⟩ := ensured
        exact ⟨ended, fun _ => reported⟩
  · simp only [if_neg nor, Unsupported]
    obtain ⟨report, upgrade, vars⟩ : ∃ report, Upgrade [] report shell (shell.lookedUp host partition) ∧
        (shell.lookedUp host partition).vars = shell.vars := by
      simp only [Shell.lookedUp]
      cases host.fdisk partition with
      | some _ => exact ⟨_, Upgrade.refl, rfl⟩
      | none => exact ⟨_, Upgrade.refl.reportError (by simp), rfl⟩
    refine (upgradePartition_ensures host _ path partition nor all (by rw [vars, unpacked])
      (by rw [vars, unset])).mono ?_ ?_
    · intro ret after ensured
      obtain ⟨named, returned⟩ := ensured
      exact ⟨not_not_intro named, returned.prepend upgrade⟩
    · intro ending after ensured
      obtain ⟨ended, reported⟩ := ensured
      refine ⟨ended.prepend upgrade, fun other => ?_⟩
      obtain ⟨more, result, two⟩ := reported other
      exact ⟨report ++ more, by rw [result, upgrade.result, List.append_assoc], List.mem_append_right _ two⟩

end Upgrades

end KernelLearning.UpPartition
