import KernelLearning.UpPartition.Transaction

/-!
# Where the package is unpacked

`check_sys_free_space` compares the size of the package, in whole KiB, with two
figures by `-gt`.  A figure that is equal to it is neither too small nor enough.
-/

namespace KernelLearning.UpPartition

open ShellSemantics

/-- The figure of the file system that a directory lies on. -/
def directorySpace (userdata tmp : Nat) (path : String) : Option Nat :=
  if path = "/userdata/upgrade" then some userdata
  else if path = "/tmp" then some tmp
  else none

/-- The package fits where it will be unpacked, or the run ends with the error because it fits on
neither file system. -/
def SpaceChecked (host : Host) (userdata tmp : Nat) (shell : Shell) : Prop :=
  Ensures (checkSysFreeSpace host) shell
    (fun _ after => ∃ free, directorySpace userdata tmp after.vars.upgradeFilePath = some free ∧
      host.upgradeFileSize ≤ free * 1024)
    (fun ending after => ending = .exit 1 ∧ otaInfo "Error: not enough space in system" ∈ after.info ∧
      userdata * 1024 < host.upgradeFileSize ∧ tmp * 1024 < host.upgradeFileSize)

/-- The check is right exactly if the larger figure differs from the size in whole KiB. -/
theorem checkSysFreeSpace_checked_iff (host : Host) {userdata tmp : Nat} {shell : Shell}
    (userdataFigure : userdataFreeSpace host = some userdata) (tmpFigure : tmpFreeSpace host = some tmp)
    (unset : shell.vars.upgradeFilePath = "") :
    SpaceChecked host userdata tmp shell ↔ host.upgradeFileSize / 1024 ≠ max userdata tmp := by
  simp only [SpaceChecked, checkSysFreeSpace, ensures_bind, ensures_printinfo, ensures_ite, ensures_throw,
    ensures_setVars, ensures_printprogress]
  rw [← userdataFreeSpace, ← tmpFreeSpace, userdataFigure, tmpFigure]
  simp only [testGt, Bool.and_eq_true, decide_eq_true_eq]
  split
  case isTrue short =>
    -- the size in KiB is rounded down, so a figure below it is too small
    obtain ⟨overUserdata, overTmp⟩ := short
    refine iff_of_true ⟨trivial, ?_, by omega, by omega⟩ (by omega)
    simp
  case isFalse enough =>
    split
    case isTrue onUserdata =>
      refine iff_of_true ⟨userdata, by simp [directorySpace], by omega⟩ ?_
      omega
    case isFalse notUserdata =>
      split
      case isTrue onTmp =>
        refine iff_of_true ⟨tmp, by simp [directorySpace], by omega⟩ ?_
        omega
      case isFalse notTmp =>
        -- neither figure is larger, and they are not both smaller
        refine iff_of_false ?_ (by omega)
        simp [unset, directorySpace]

/-- A board with 60000 KiB free on `/userdata` and 20000 KiB on `/tmp`. -/
def spaceHost (upgradeFileSize : Nat) : Host :=
  { brokenHost with
    upgradeFileSize
    df := fun fileSystem _ => if fileSystem = "/userdata" then some 60000 else some 20000 }

/-- A package of 32 MiB goes to `/userdata`. -/
theorem checkSysFreeSpace_checked_fits : SpaceChecked (spaceHost 33554432) 60000 20000 (Shell.start "boot" 0) :=
  (checkSysFreeSpace_checked_iff (spaceHost 33554432) rfl rfl rfl).mpr (by decide)

/-- A package of exactly 60000 KiB would fit, and is unpacked nowhere. -/
theorem checkSysFreeSpace_not_checked : ¬ SpaceChecked (spaceHost 61440000) 60000 20000 (Shell.start "boot" 0) := by
  intro checked
  obtain ⟨free, found, _⟩ := checked
  cases found

end KernelLearning.UpPartition
