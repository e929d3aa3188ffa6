import KernelLearning.UpPartition.Phases

/-!
# Verification as a gate

The outcome of `verify_rsa_signature` goes to the log and to nothing else, so
that a run gives its flashing commands whether or not the package verifies.
-/

namespace KernelLearning.UpPartition

open ShellSemantics

variable (host : Host)

/-- The signatures of the package. -/
def signatureFile : String := upgradePath host ++ "/signature.txt"

/-- Before each flashing command, `openssl` reported `Verify OK` for every file that
`signature.txt` names. -/
def Gated (after : Shell) : Prop :=
  ∀ before command code later, after.events = before ++ .flashed command code :: later →
    ∃ text, host.file (signatureFile host) = some text ∧ ∀ line ∈ signatureLines host text,
      isFile host (updateFileOf (upgradePath host) line) = true ∧
        .verified (updateFileOf (upgradePath host) line) "Verify OK" ∈ before

/-- `file` is named by the first line that `openssl` verifies, and the lines before it name
files that are there. -/
def FirstVerified (directory : String) (lines : List String) (file : String) : Prop :=
  ∃ earlier line later, lines = earlier ++ line :: later ∧
    (∀ other ∈ earlier, isFile host (updateFileOf directory other) = true ∧
      host.openssl (signatureOf other) (updateFileOf directory other) ≠ "Verify OK") ∧
    isFile host (updateFileOf directory line) = true ∧
    host.openssl (signatureOf line) (updateFileOf directory line) = "Verify OK" ∧
    updateFileOf directory line = file

/-- `signature.txt` is there, and what it names is there and is what the first line verifies
that is read, from the standard input. -/
def AllReported : Prop :=
  ∃ text, host.file (signatureFile host) = some text ∧ ∀ line ∈ signatureLines host text,
    isFile host (updateFileOf (upgradePath host) line) = true ∧
      FirstVerified host (upgradePath host) (signatureLines host host.stdin) (updateFileOf (upgradePath host) line)

/-! ## What is reported -/

theorem not_firstVerified_nil (directory file : String) : ¬ FirstVerified host directory [] file := by
  rintro ⟨earlier, _, _, shape, _⟩
  cases earlier with
  | nil => cases shape
  | cons head rest => cases shape

/-- Either the first line verifies and names the file, or it names a file that is there and does not
verify, and a later line is the first to do so. -/
theorem firstVerified_cons_iff (directory file line : String) (lines : List String) :
    FirstVerified host directory (line :: lines) file ↔
      isFile host (updateFileOf directory line) = true ∧
        if host.openssl (signatureOf line) (updateFileOf directory line) = "Verify OK" then
          updateFileOf directory line = file
        else FirstVerified host directory lines file := by
  constructor
  · rintro ⟨earlier, verified, later, shape, before, there, ok, names⟩
    cases earlier with
    | nil =>
      obtain ⟨rfl, _⟩ := List.cons.inj shape
      exact ⟨there, by rw [if_pos ok]; exact names⟩
    | cons head rest =>
      obtain ⟨rfl, rfl⟩ := List.cons.inj shape
      obtain ⟨headThere, headFails⟩ := before _ List.mem_cons_self
      refine ⟨headThere, ?_⟩
      rw [if_neg headFails]
      exact ⟨rest, verified, later, rfl, fun other member => before other (List.mem_cons_of_mem _ member),
        there, ok, names⟩
  · rintro ⟨there, rest⟩
    split at rest
    case isTrue ok => exact ⟨[], line, lines, rfl, fun _ member => absurd member List.not_mem_nil, there, ok, rest⟩
    case isFalse fails =>
      obtain ⟨earlier, verified, later, rfl, before, verifies⟩ := rest
      exact ⟨line :: earlier, verified, later, rfl, List.forall_mem_cons.mpr ⟨⟨there, fails⟩, before⟩, verifies⟩

/-- The loop stops at the first `Verify OK`, which is the only one. -/
theorem mem_checkedLines_iff (directory file : String) (lines : List String) :
    (file, "Verify OK") ∈ checkedLines host directory lines ↔ FirstVerified host directory lines file := by
  induction lines with
  | nil => simp [checkedLines, not_firstVerified_nil]
  | cons line lines inductionHypothesis =>
    rw [firstVerified_cons_iff]
    simp only [checkedLines]
    split
    case isFalse missing =>
      -- the loop has ended without a result at a file that is missing
      simp [missing]
    case isTrue there =>
      by_cases ok : host.openssl (signatureOf line) (updateFileOf directory line) = "Verify OK"
      · simp only [ok, if_true, List.mem_singleton, Prod.mk.injEq, and_true, there, true_and]
        exact eq_comm
      · simp only [if_neg ok, List.mem_cons, Prod.mk.injEq, Ne.symm ok, and_false, false_or, inductionHypothesis,
          there, true_and]

theorem verified_mem_checks_iff {text : String} (present : host.file (signatureFile host) = some text) (file : String) :
    .verified file "Verify OK" ∈ (checks host).map verifiedEvent ↔
      FirstVerified host (upgradePath host) (signatureLines host host.stdin) file := by
  have there : isFile host (upgradePath host ++ "/signature.txt") = true := by
    simp only [isFile]
    rw [← signatureFile, present]
    rfl
  rw [← mem_checkedLines_iff, checks, if_pos there]
  generalize checkedLines host (upgradePath host) (signatureLines host host.stdin) = checked
  constructor
  · intro member
    obtain ⟨check, inChecked, same⟩ := List.mem_map.mp member
    obtain ⟨rfl, answered⟩ := Event.verified.inj same
    rw [← answered]
    exact inChecked
  · exact fun member => List.mem_map.mpr ⟨_, member, rfl⟩

/-! ## The order of the events -/

/-- A flashing command is preceded by all that is verified, and by nothing else that is
verified. -/
theorem verified_mem_before_iff {checks : List (String × String)} {commands : List (FlashCommand × Nat)}
    {before later : List Event} {command : FlashCommand} {code : Nat} {file answer : String}
    (events : checks.map verifiedEvent ++ commands.map flashedEvent = before ++ .flashed command code :: later) :
    .verified file answer ∈ before ↔ .verified file answer ∈ checks.map verifiedEvent := by
  obtain ⟨between, rfl, rest⟩ | ⟨between, rest, shape⟩ := List.append_eq_append_iff.mp events
  · have flashed : .verified file answer ∉ between := by
      intro member
      have inCommands : Event.verified file answer ∈ commands.map flashedEvent := rest ▸ List.mem_append_left _ member
      obtain ⟨entry, _, same⟩ := List.mem_map.mp inCommands
      cases same
    simp [flashed]
  · -- the command would be among what is verified
    cases between with
    | nil =>
      rw [List.append_nil] at rest
      rw [rest]
    | cons first between =>
      cases shape
      have inChecks : Event.flashed command code ∈ checks.map verifiedEvent := rest ▸ by simp
      obtain ⟨entry, _, same⟩ := List.mem_map.mp inChecks
      cases same

section Gate

variable {host} {partition : String} {status : UInt64} {after : Shell}

/-- Without a flashing command there is nothing to gate. -/
theorem gated_of_noFlash {commands : List (FlashCommand × Nat)} {report : List String}
    (done : RunDone host partition status commands report after) (none : ¬ RunWrites host partition) :
    Gated host after := by
  intro before command code later events
  have nothing : commands = [] :=
    Classical.byContradiction fun some => none (done.wrote.mp some)
  rw [done.events, nothing, List.map_nil, List.append_nil] at events
  have member : Event.flashed command code ∈ (checks host).map verifiedEvent := events ▸ by simp
  obtain ⟨entry, _, same⟩ := List.mem_map.mp member
  cases same

/-- Where something is flashed, the gate holds for what is reported, whatever that is. -/
theorem gated_iff_of_flash {commands : List (FlashCommand × Nat)} {report : List String}
    (done : RunDone host partition status commands report after) (writes : RunWrites host partition) :
    Gated host after ↔ AllReported host := by
  constructor
  · intro gated
    obtain ⟨command, rest, rfl⟩ := List.exists_cons_of_ne_nil (done.wrote.mpr writes)
    obtain ⟨text, present, reported⟩ := gated _ command.1 command.2 (rest.map flashedEvent) done.events
    refine ⟨text, present, fun line member => ?_⟩
    obtain ⟨there, verified⟩ := reported line member
    exact ⟨there, (verified_mem_checks_iff host present _).mp verified⟩
  · rintro ⟨text, present, reported⟩ before command code later events
    refine ⟨text, present, fun line member => ?_⟩
    obtain ⟨there, verified⟩ := reported line member
    rw [done.events] at events
    exact ⟨there, (verified_mem_before_iff events).mpr ((verified_mem_checks_iff host present _).mpr verified)⟩

end Gate

/-- A run is gated where it flashes nothing for other reasons, and where `openssl` happens to
report all that `signature.txt` names. -/
theorem upPartition_gated_iff (partition : String) (status : UInt64) :
    Gated host (leaves? (upPartition host) (Shell.start partition status)) ↔
      ¬ (Proceeds host ∧ RunWrites host partition) ∨ AllReported host := by
  obtain ⟨proceeds, commands, report, done⟩ | ⟨stops, events, _⟩ := upPartition_outcome host partition status
  · by_cases writes : RunWrites host partition
    · rw [gated_iff_of_flash done writes]
      constructor
      · exact .inr
      · rintro (stopped | reported)
        · exact absurd ⟨proceeds, writes⟩ stopped
        · exact reported
    · exact ⟨fun _ => .inl fun both => writes both.2, fun _ => gated_of_noFlash done writes⟩
  · refine ⟨fun _ => .inl fun both => stops both.1, fun _ before command code later shape => ?_⟩
    rw [events] at shape
    simp at shape

/-- A board that boots from eMMC, and a package with `uboot.img` and no signature. -/
def unsignedHost : Host where
  otaBootmode := "emmc"
  otaUpmode := "single"
  image := "/userdata/uboot.zip"
  otaTool := true
  updateFlag := fun _ => ""
  df := fun _ _ => some 100000
  rootListed := true
  upgradeFileSize := 1048576
  file := fun path => if path = "/userdata/upgrade/uboot.img" then some "" else none
  stdin := ""
  expand := fun word => [word]
  openssl := fun _ _ => "Verification Failure"
  mtd := fun _ => none
  ubi := fun _ => none
  fdisk := fun _ => some 3
  exitCode := fun _ => 0
  reboot := none

theorem unsignedHost_notGated : ¬ Gated unsignedHost (leaves? (upPartition unsignedHost) (Shell.start "uboot" 0)) := by
  intro gated
  obtain ⟨text, present, _⟩ := gated [] (.readBack "/dev/mmcblk0p3" "/userdata/upgrade/uboot.img") 0
    [.flashed (.dd "/userdata/upgrade/uboot.img" "/dev/mmcblk0p3") 0] (by rfl)
  have absent : unsignedHost.file (signatureFile unsignedHost) = none := rfl
  rw [absent] at present
  cases present

end KernelLearning.UpPartition
