import KernelLearning.UpPartition.Phases

/-!
# The upgrade as a transaction

The status is set before the image is written and stays, whatever becomes of the
image.  A failure that the script looks at is reported: in the result file or
by the update flag 13.
-/

namespace KernelLearning.UpPartition

open ShellSemantics

variable (host : Host)

/-- A run over which the script has something to report: it proceeds for a name that is not
supported, or a flashing command whose exit code is looked at failed. -/
def Noticeable (partition : String) (after : Shell) : Prop :=
  (Proceeds host ∧ Unsupported host (upgradePath host) (withoutSuffix ".zip" partition)) ∨
    ∃ command code, .flashed command code ∈ after.events ∧ Checked (upgradePath host) command ∧ code ≠ 0

theorem RunDone.failed_of_mem {host : Host} {partition : String} {status : UInt64}
    {commands : List (FlashCommand × Nat)} {report : List String} {after : Shell} {command : FlashCommand} {code : Nat}
    (done : RunDone host partition status commands report after) (flashed : .flashed command code ∈ after.events)
    (checked : Checked (upgradePath host) command) (nonzero : code ≠ 0) : Failed (upgradePath host) commands := by
  rw [done.events, List.mem_append] at flashed
  cases flashed with
  | inl verified =>
    obtain ⟨check, _, same⟩ := List.mem_map.mp verified
    cases same
  | inr flashed =>
    obtain ⟨entry, member, same⟩ := List.mem_map.mp flashed
    obtain ⟨rfl, rfl⟩ := Event.flashed.inj same
    exact ⟨entry, member, checked, nonzero⟩

/-- A flip of the status is never nothing. -/
theorem statusMask_ne_zero (partition : String) : statusMask partition ≠ 0 := by
  simp only [statusMask, partitionToNumber]
  split
  · decide
  · -- the numbers of the names, and 0 for every other name
    generalize beforeLast "_b" partition = name
    by_cases uboot : "uboot" = name
    · subst uboot; decide
    by_cases boot : "boot" = name
    · subst boot; decide
    by_cases system : "system" = name
    · subst system; decide
    · simp [List.findIdx?_cons, uboot, boot, system]

/-- In the mode `AB`, then, the status is another one than before. -/
theorem RunDone.statusChanged {host : Host} {partition : String} {status : UInt64}
    {commands : List (FlashCommand × Nat)} {report : List String} {after : Shell}
    (done : RunDone host partition status commands report after) (ab : host.otaUpmode = "AB") :
    after.partstatus ≠ status := by
  rw [done.partstatus, statusRead, if_pos ab]
  intro same
  have zero : status ^^^ status ^^^ statusMask partition = 0 := by
    rw [UInt64.xor_assoc, same, UInt64.xor_self]
  rw [UInt64.xor_self, UInt64.zero_xor] at zero
  exact statusMask_ne_zero partition zero

/-- The status after a run, and what a failure that is looked at leads to: a `2` on top of
what the result file held before the image was written, or the update flag 13, and no success. -/
structure TransactionEnds (partition : String) (status : UInt64) (after : Shell) : Prop where
  statusSet : Proceeds host → after.partstatus = statusRead host status ^^^ statusMask partition
  statusChanged : Proceeds host → host.otaUpmode = "AB" → after.partstatus ≠ status
  statusKept : ¬ Proceeds host → after.partstatus = status
  reported : Noticeable host partition after →
    ((∃ report, after.result = flagReport host 0 "" ++ report ∧ "2" ∈ report) ∨ "13" ∈ after.updateFlags) ∧
      successLine ∉ after.info

theorem upPartition_transaction (partition : String) (status : UInt64) :
    TransactionEnds host partition status (leaves? (upPartition host) (Shell.start partition status)) := by
  obtain ⟨proceeds, commands, report, done⟩ | ⟨stops, events, partstatus⟩ := upPartition_outcome host partition status
  · refine ⟨fun _ => done.partstatus, fun _ => done.statusChanged, fun stops => absurd proceeds stops, ?_⟩
    intro noticeable
    have bad : Failed (upgradePath host) commands ∨
        Unsupported host (upgradePath host) (withoutSuffix ".zip" partition) := by
      obtain ⟨_, unsupported⟩ | ⟨command, code, flashed, checked, nonzero⟩ := noticeable
      · exact .inr unsupported
      · exact .inl (done.failed_of_mem flashed checked nonzero)
    obtain ⟨reported, unlogged⟩ := done.noticed bad
    refine ⟨?_, unlogged⟩
    cases reported with
    | inl two => exact .inl ⟨report, done.result, two⟩
    | inr flag => exact .inr flag
  · refine ⟨fun proceeds => absurd proceeds stops, fun proceeds => absurd proceeds stops, fun _ => partstatus, ?_⟩
    intro noticeable
    -- a run that stops gave no flashing command
    cases noticeable with
    | inl unsupported => exact absurd unsupported.1 stops
    | inr failed =>
      obtain ⟨command, code, flashed, _⟩ := failed
      rw [events] at flashed
      cases flashed

/-- A board in the mode `AB` on which every flashing command fails. -/
def brokenHost : Host where
  otaBootmode := "emmc"
  otaUpmode := "AB"
  image := "/userdata/boot.zip"
  otaTool := true
  updateFlag := fun _ => ""
  df := fun _ _ => some 100000
  rootListed := true
  upgradeFileSize := 1048576
  file := fun path =>
    if path = "/userdata/upgrade/vbmeta.img" ∨ path = "/userdata/upgrade/boot.img" then some "" else none
  stdin := ""
  expand := fun word => [word]
  openssl := fun _ _ => "Verification Failure"
  mtd := fun _ => none
  ubi := fun _ => none
  fdisk := fun _ => some 4
  exitCode := fun _ => 1
  reboot := none

theorem brokenHost_not_restored :
    let after := leaves? (upPartition brokenHost) (Shell.start "boot" 0)
    (∃ command code, .flashed command code ∈ after.events ∧ code ≠ 0) ∧
      ¬ (after.partstatus = 0 ∧ "2" ∈ after.result ∧ successLine ∉ after.info) := by
  intro after
  have events : after.events = [.flashed (.dd "/userdata/upgrade/vbmeta.img" "/dev/mmcblk0p2") 1,
      .flashed (.dd "/userdata/upgrade/boot.img" "/dev/mmcblk0p4") 1] := by rfl
  have partstatus : after.partstatus = 2 := by rfl
  refine ⟨⟨_, 1, by rw [events]; exact List.mem_cons_self, by decide⟩, ?_⟩
  intro restored
  rw [partstatus] at restored
  exact absurd restored.1 (by decide)

end KernelLearning.UpPartition
