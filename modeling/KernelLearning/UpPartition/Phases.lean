import KernelLearning.UpPartition.Upgrades

/-!
# A whole run

The phases of `all`, and from them what a run of the script leaves behind.
-/

namespace KernelLearning.UpPartition

open ShellSemantics

variable (host : Host)

/-! ## The check for free space -/

def upgradeNeedSpace : Option Nat := some (host.upgradeFileSize / 1024)

def userdataFreeSpace : Option Nat := host.df "/userdata" (if host.otaBootmode = "emmc" then "userdata" else "ubi")

def tmpFreeSpace : Option Nat := host.df "/tmp/" "tmp"

/-- Whether the script goes on after the check. -/
def EnoughSpace : Prop :=
  ¬ (testGt (upgradeNeedSpace host) (userdataFreeSpace host) ∧ testGt (upgradeNeedSpace host) (tmpFreeSpace host))

/-- Where the package is unpacked. -/
def upgradePath : String :=
  if testGt (userdataFreeSpace host) (upgradeNeedSpace host) then "/userdata/upgrade"
  else if testGt (tmpFreeSpace host) (upgradeNeedSpace host) then "/tmp"
  else ""

/-- A phase that changes `vars` and logs. -/
def Logged (vars : Vars) (before after : Shell) : Prop :=
  ∃ lines progress, after = { before with vars, info := before.info ++ lines, progress } ∧ successLine ∉ lines

/-- What the check logs about the figures it compares. -/
def spaceLines : List String :=
  [otaInfo ("upgrade_need_space: " ++ toString (host.upgradeFileSize / 1024)),
    otaInfo ("tmp_free_space: " ++ figure (tmpFreeSpace host)),
    otaInfo ("userdata_free_space: " ++ figure (userdataFreeSpace host))]

theorem successLine_notMem_spaceLines : successLine ∉ spaceLines host := by
  simp [spaceLines]

theorem checkSysFreeSpace_ensures {shell : Shell} (unset : shell.vars.upgradeFilePath = "") :
    Ensures (checkSysFreeSpace host) shell
      (fun _ after => EnoughSpace host ∧ Logged { shell.vars with upgradeFilePath := upgradePath host } shell after)
      (fun _ after => ¬ EnoughSpace host ∧ Logged shell.vars shell after) := by
  have quiet := successLine_notMem_spaceLines host
  simp only [checkSysFreeSpace, ensures_bind, ensures_printinfo, ensures_ite, ensures_throw, ensures_setVars,
    ensures_printprogress, EnoughSpace, upgradePath]
  rw [← upgradeNeedSpace, ← userdataFreeSpace, ← tmpFreeSpace]
  simp only [List.append_assoc, List.cons_append, List.nil_append]
  split
  case isTrue short =>
    rw [Bool.and_eq_true] at short
    refine ⟨fun enough => enough short, spaceLines host ++ [otaInfo "Error: not enough space in system"],
      shell.progress, by simp only [spaceLines, List.cons_append, List.nil_append],
      List.not_mem_append quiet ?_⟩
    simp
  case isFalse enough =>
    rw [Bool.and_eq_true] at enough
    split
    case isTrue userdata => exact ⟨enough, spaceLines host, _, rfl, quiet⟩
    case isFalse userdata =>
      split
      case isTrue tmp => exact ⟨enough, spaceLines host, _, rfl, quiet⟩
      case isFalse tmp => exact ⟨enough, spaceLines host, shell.progress ++ [otaInfo "10%"],
        by simp only [← unset, spaceLines], quiet⟩

/-! ## The verification -/

/-- What `openssl` is asked about, line by line, and what it answers: up to the first line
that names no file, or that it verifies. -/
def checkedLines (file : String) : List String → List (String × String)
  | [] => []
  | line :: lines =>
    if isFile host (updateFileOf file line) then
      let answer := host.openssl (signatureOf line) (updateFileOf file line)
      (updateFileOf file line, answer) :: if answer = "Verify OK" then [] else checkedLines file lines
    else []

/-- What is verified in a run. -/
def checks : List (String × String) :=
  if isFile host (upgradePath host ++ "/signature.txt") then
    checkedLines host (upgradePath host) (signatureLines host host.stdin)
  else []

def verifiedEvent (check : String × String) : Event := .verified check.1 check.2

/-- A phase that verifies and logs. -/
def Verified (checked : List (String × String)) (before after : Shell) : Prop :=
  ∃ lines progress, after = { before with
    info := before.info ++ lines, progress, events := before.events ++ checked.map verifiedEvent } ∧
    successLine ∉ lines

theorem verifyLines_ensures (file : String) (lines : List String) (shell : Shell) :
    Ensures (verifyLines host file lines) shell (fun _ after => Verified (checkedLines host file lines) shell after)
      (fun _ _ => False) := by
  induction lines generalizing shell with
  | nil => exact ⟨[], shell.progress, by simp [checkedLines], by simp⟩
  | cons line lines inductionHypothesis =>
    simp only [verifyLines, ensures_ite, ensures_bind, ensures_opensslVerify, ensures_printinfo, ensures_pure,
      checkedLines]
    split
    case isTrue there =>
      split
      case isTrue ok =>
        refine ⟨_, shell.progress, by simp [verifiedEvent, ok]; rfl, ?_⟩
        simp
      case isFalse other =>
        refine (inductionHypothesis _).mono ?_ fun _ _ never => never
        intro flag after ensured
        obtain ⟨logged, progress, reached, quiet⟩ := ensured
        exact ⟨logged, progress, by simp [reached, verifiedEvent], quiet⟩
    case isFalse missing =>
      refine ⟨_, shell.progress, by simp; rfl, ?_⟩
      simp

theorem verifyRsaSignature_ensures {shell : Shell} (unpacked : shell.vars.upgradeFilePath = upgradePath host) :
    Ensures (verifyRsaSignature host) shell (fun _ after => Verified (checks host) shell after) (fun _ _ => False) := by
  -- both outcomes of the verification only log, and the script goes on
  have outcome : ∀ between : Shell, Verified (checks host) shell between → ∀ text,
      otaInfo text ≠ successLine →
      Verified (checks host) shell { between with
        info := between.info ++ [otaInfo text], progress := between.progress ++ [otaInfo "20%"] } := by
    intro between ⟨lines, progress, reached, quiet⟩ text other
    refine ⟨lines ++ [otaInfo text], _, by rw [reached, ← List.append_assoc], List.not_mem_append quiet ?_⟩
    simpa using other.symm
  have failed : otaInfo "warning: rsa verify signature failed !" ≠ successLine := by
    simp
  simp only [verifyRsaSignature, ensures_bind, ensures_get, ensures_ite, unpacked, ensures_printinfo, ensures_pure,
    ensures_printprogress, Bool.false_eq_true, if_false]
  split
  case isTrue there =>
    have checked : checks host = checkedLines host (upgradePath host) (signatureLines host host.stdin) := by
      rw [checks, if_pos there]
    rw [checked] at outcome ⊢
    generalize signatureLines host host.stdin = lines at outcome ⊢
    refine (verifyLines_ensures host (upgradePath host) lines shell).mono ?_ fun _ _ never => never
    intro flag between verified
    split
    · exact outcome between verified _ (by simp)
    · exact outcome between verified _ failed
  case isFalse missing =>
    have nothing : Verified (checks host) shell
        { shell with info := shell.info ++ [otaInfo "warning: file signature.txt not exist"] } := by
      refine ⟨[otaInfo "warning: file signature.txt not exist"], shell.progress, ?_, ?_⟩
      · rw [checks, if_neg missing, List.map_nil, List.append_nil]
      · simp
    exact outcome _ nothing _ failed

/-! ## The status and the update flag -/

/-- What `update_flag` appends to the result file, the n-th time that it is called. -/
def flagReport (calls : Nat) (value : String) : List String :=
  if host.updateFlag calls = value then [] else ["2"]

theorem updateFlag_ensures (value : String) (shell : Shell) :
    Ensures (updateFlag host value) shell
      (fun _ after => ∃ lines, after = { shell with
        info := shell.info ++ lines
        result := shell.result ++ flagReport host shell.updateFlags.length value
        updateFlags := shell.updateFlags ++ [value] } ∧ successLine ∉ lines)
      (fun _ _ => False) := by
  simp only [updateFlag, ensures_bind, ensures_get, ensures_modify, ensures_ite, ensures_printinfo,
    ensures_appendResult, flagReport]
  split
  case isTrue set =>
    refine ⟨[otaInfo ("update flag " ++ host.updateFlag shell.updateFlags.length ++ " success ! ")], ?_, ?_⟩
    · rw [List.append_nil]
    · simp
  case isFalse other =>
    refine ⟨[otaInfo ("Error: update flag " ++ host.updateFlag shell.updateFlags.length ++ " failed !")],
      rfl, ?_⟩
    simp

/-- The status that the script reads before it changes it: outside the mode `AB` none. -/
def statusRead (status : UInt64) : UInt64 := if host.otaUpmode = "AB" then status else 0

theorem paramterInit_ensures {shell : Shell} (unset : shell.vars.abPartitionStatus = 0) :
    Ensures (paramterInit host) shell
      (fun value after => value = 0 ∧
        Logged { shell.vars with abPartitionStatus := statusRead host shell.partstatus } shell after)
      (fun _ _ => False) := by
  simp only [paramterInit, getAbPartitionStatus, ensures_bind, ensures_ite, ensures_get, ensures_setVars,
    ensures_printinfo, ensures_printprogress, ensures_pure, statusRead]
  split
  case isTrue ab =>
    refine ⟨trivial, [otaInfo ("get ab_partition_status " ++ toString shell.partstatus)], _, rfl, ?_⟩
    simp
  case isFalse =>
    refine ⟨trivial, [], shell.progress ++ [otaInfo "35%"], ?_, by simp⟩
    rw [← unset, List.append_nil]

theorem otaUpdateFlag_ensures (shell : Shell) :
    Ensures (otaUpdateFlag host) shell
      (fun _ after => ∃ lines vars, after = { shell with
          vars
          info := shell.info ++ lines
          result := shell.result ++ flagReport host shell.updateFlags.length ""
          updateFlags := shell.updateFlags ++ [""]
          partstatus := shell.vars.abPartitionStatus ^^^ statusMask shell.vars.partition } ∧
        successLine ∉ lines ∧ vars.partition = shell.vars.partition ∧
        vars.upgradeFilePath = shell.vars.upgradeFilePath ∧ vars.boardStatus = shell.vars.boardStatus)
      (fun _ _ => False) := by
  simp only [otaUpdateFlag, ensures_bind]
  refine (updateFlag_ensures host "" shell).mono ?_ fun _ _ never => never
  intro _ after ensured
  obtain ⟨lines, reached, quiet⟩ := ensured
  simp only [ensures_get, ensures_printinfo, ensures_setVars, ensures_modify, reached]
  refine ⟨lines ++ ([otaInfo ("set resetreason " ++ beforeLast "_b" shell.vars.partition)] ++
      [otaInfo ("update status " ++
        toString (shell.vars.abPartitionStatus ^^^ statusMask shell.vars.partition) ++ " finish")]),
    { shell.vars with abPartitionStatus := shell.vars.abPartitionStatus ^^^ statusMask shell.vars.partition },
    by simp only [List.append_assoc], List.not_mem_append quiet ?_, rfl, rfl, rfl⟩
  simp

/-! ## The image -/

/-- `update_img` gives a flashing command where `ImgWrites` says, and reports what it looks at. -/
def ImgDone (path partition : String) (before after : Shell) : Prop :=
  ∃ commands report, after.events = before.events ++ commands.map flashedEvent ∧
    (commands ≠ [] ↔ ImgWrites host path partition) ∧ after.partstatus = before.partstatus ∧
    after.result = before.result ++ report ∧
    (Failed path commands ∨ Unsupported host path partition →
      ("2" ∈ report ∨ "13" ∈ after.updateFlags) ∧ (successLine ∉ before.info → successLine ∉ after.info))

theorem updateImg_ensures (path : String) (shell : Shell) (unpacked : shell.vars.upgradeFilePath = path)
    (unset : shell.vars.boardStatus = "") :
    Ensures (updateImg host) shell
      (fun _ after => ImgDone host path (withoutSuffix ".zip" shell.vars.partition) shell after)
      (fun _ after => ImgDone host path (withoutSuffix ".zip" shell.vars.partition) shell after) := by
  simp only [updateImg, ensures_bind, ensures_setVars]
  refine (writeImg_ensures host
    { shell with vars := { shell.vars with partition := withoutSuffix ".zip" shell.vars.partition } } path
    (withoutSuffix ".zip" shell.vars.partition) unpacked unset rfl).mono ?_ ?_
  · intro ret after ensured
    obtain ⟨other, commands, report, upgrade, wrote, noticed⟩ := ensured
    simp only [ensures_ite, ensures_printinfo, ensures_printprogress, ensures_pure, ensures_bind]
    split
    case isTrue zero =>
      refine ⟨commands, report, upgrade.events, wrote, upgrade.partstatus, upgrade.result, ?_⟩
      intro bad
      cases bad with
      | inl failed => exact absurd failed (noticed zero)
      | inr unsupported => exact absurd unsupported other
    case isFalse =>
      -- the failure is left in the update flag
      refine (updateFlag_ensures host "13" after).mono ?_ fun _ _ never => never.elim
      intro _ last ensured
      obtain ⟨lines, reached, quiet⟩ := ensured
      obtain ⟨logged, info, quiet'⟩ := upgrade.info
      refine ⟨commands, report ++ flagReport host after.updateFlags.length "13", by rw [reached]; exact upgrade.events,
        wrote, by rw [reached]; exact upgrade.partstatus, ?_, ?_⟩
      · rw [reached, ← List.append_assoc, ← upgrade.result]
      · intro _
        refine ⟨.inr (by simp [reached]), fun before => ?_⟩
        rw [reached, info]
        exact List.not_mem_append (List.not_mem_append before quiet') quiet
  · intro ending after ensured
    obtain ⟨⟨commands, report, upgrade, wrote, reported⟩, unsupported⟩ := ensured
    obtain ⟨logged, info, quiet⟩ := upgrade.info
    refine ⟨commands, report, upgrade.events, wrote, upgrade.partstatus, upgrade.result, ?_⟩
    intro bad
    refine ⟨.inl ?_, fun before => by rw [info]; exact List.not_mem_append before quiet⟩
    cases bad with
    | inl failed => exact reported failed
    | inr other =>
      obtain ⟨report', result, two⟩ := unsupported other
      rw [upgrade.result] at result
      rwa [List.append_cancel_left result]

/-! ## The whole run -/

/-- `ota_tool` is there, and so is enough space. -/
def Proceeds : Prop := host.otaTool = true ∧ EnoughSpace host

/-- Whether a run for `partition` gives a flashing command once it proceeds. -/
def RunWrites (partition : String) : Prop :=
  ImgWrites host (upgradePath host) (withoutSuffix ".zip" partition)

/-- What a run that proceeds leaves behind. -/
structure RunDone (partition : String) (status : UInt64) (commands : List (FlashCommand × Nat)) (report : List String)
    (after : Shell) : Prop where
  events : after.events = (checks host).map verifiedEvent ++ commands.map flashedEvent
  wrote : commands ≠ [] ↔ RunWrites host partition
  partstatus : after.partstatus = statusRead host status ^^^ statusMask partition
  result : after.result = flagReport host 0 "" ++ report
  noticed : Failed (upgradePath host) commands ∨
      Unsupported host (upgradePath host) (withoutSuffix ".zip" partition) →
    ("2" ∈ report ∨ "13" ∈ after.updateFlags) ∧ successLine ∉ after.info

def Outcome (partition : String) (status : UInt64) (after : Shell) : Prop :=
  (Proceeds host ∧ ∃ commands report, RunDone host partition status commands report after) ∨
    (¬ Proceeds host ∧ after.events = [] ∧ after.partstatus = status)

theorem upPartition_outcome (partition : String) (status : UInt64) :
    Outcome host partition status (leaves? (upPartition host) (Shell.start partition status)) := by
  refine Ensures.leaves ?_
  simp only [upPartition, checkOtaBin, ensures_bind, ensures_ite, ensures_pure, ensures_throw]
  split
  case isFalse none => exact .inr ⟨fun proceeds => none proceeds.1, rfl, rfl⟩
  case isTrue tool =>
    simp only [all, ensures_bind]
    refine Ensures.mono (checkSysFreeSpace_ensures host rfl) ?_ ?_
    · intro _ checked ensured
      obtain ⟨enough, checkLines, checkProgress, reached, quietCheck⟩ := ensured
      subst reached
      refine Ensures.mono (verifyRsaSignature_ensures host rfl) ?_ fun _ _ never => never.elim
      intro _ verified ensured
      obtain ⟨verifyLines, verifyProgress, reached, quietVerify⟩ := ensured
      subst reached
      refine Ensures.mono (paramterInit_ensures host rfl) ?_ fun _ _ never => never.elim
      intro value initialised ensured
      obtain ⟨isZero, initLines, initProgress, reached, quietInit⟩ := ensured
      subst reached isZero
      simp only [ne_eq, not_true_eq_false, if_false, ensures_bind]
      refine Ensures.mono (otaUpdateFlag_ensures host _) ?_ fun _ _ never => never.elim
      intro _ flagged ensured
      obtain ⟨flagLines, vars, reached, quietFlag, chosen, unpacked, unset⟩ := ensured
      -- what is logged up to here is not the last line of `update_img`
      have logged : successLine ∉ flagged.info := by
        rw [reached]
        exact List.not_mem_append (List.not_mem_append (List.not_mem_append (List.not_mem_append (by simp [Shell.start])
          quietCheck) quietVerify) quietInit) quietFlag
      have done : ∀ after, ImgDone host (upgradePath host) (withoutSuffix ".zip" partition) flagged after →
          Outcome host partition status after := by
        intro after ensured
        obtain ⟨commands, report, events, wrote, partstatus, result, noticed⟩ := ensured
        refine .inl ⟨⟨tool, enough⟩, commands, report, ?_, wrote, ?_, ?_, ?_⟩
        · rw [events, reached]
          rfl
        · rw [partstatus, reached]
          rfl
        · rw [result, reached]
          rfl
        · intro bad
          obtain ⟨reported, unlogged⟩ := noticed bad
          exact ⟨reported, unlogged logged⟩
      have image := updateImg_ensures host (upgradePath host) flagged (by rw [reached]; exact unpacked)
        (by rw [reached]; exact unset)
      have name : flagged.vars.partition = partition := by
        rw [reached]
        exact chosen
      rw [name] at image
      exact image.mono (fun _ after imgDone => done after imgDone) fun _ after imgDone => done after imgDone
    · intro ending checked ensured
      obtain ⟨short, checkLines, checkProgress, reached, _⟩ := ensured
      subst reached
      exact .inr ⟨fun proceeds => short proceeds.2, rfl, rfl⟩

end KernelLearning.UpPartition
