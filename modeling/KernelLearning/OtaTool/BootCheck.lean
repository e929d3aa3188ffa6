import KernelLearning.OtaTool.Sessions
import KernelLearning.ShellSemantics.Expansion
import KernelLearning.ShellSemantics.Script

/-!
# The update check at boot

`S9updatecheck.sh` reads the settings back with the tool and leaves upgrades to `ota_utility`,
which waits for command lines at a pipe.
-/

namespace KernelLearning.OtaTool

open KernelLearning.CSemantics KernelLearning.Interaction KernelLearning.ShellSemantics
open KernelLearning.Veeprom

/-- What the board has when it boots. -/
structure Board where
  /-- Whether `/usr/bin/ota_tool` is a file. -/
  otaTool : Bool
  /-- What the tool was compiled for. -/
  platform : Platform
  /-- The memory that the tool finds, the first time, the second time and so on. -/
  stack : Nat → Stack
  /-- Whether `/tmp/otapipe` is a pipe, and whether `mkfifo` could make it one. -/
  pipe : Bool
  mkfifo : Bool
  /-- What `/userdata/cache/command` stored. -/
  command : Option (List Byte)
  /-- Whether `/userdata/cache/verify_tmp` is a directory. -/
  unzipPath : Bool
  /-- What each `read line` gets from the pipe. -/
  arrivals : List (Option (List Byte))

/-- The veeprom and the variables; `started` has the command lines that `ota_utility` ran. -/
structure BootShell where
  store : Store
  processes : Nat
  started : List (List Byte)
  resetreason : List Byte
  otaUpmode : List Byte

inductive BootEnding where
  | exit (code : Nat)
  /-- Everything that arrived was read, and the next `read line` waits. -/
  | waiting
  | undefined (fault : ToolFault)

abbrev Boot (α : Type) : Type := Script BootEnding BootShell α

section
variable (board : Board)

/-- `$(${ota_tool} ..)` -/
def runTool (args : List (List Byte)) : Boot (List Byte) := fun shell =>
  let ran := (toolMain board.platform (board.stack shell.processes) args).run answerTool ⟨shell.store, false, []⟩
  let shell := { shell with store := ran.2.store, processes := shell.processes + 1 }
  match ran.1 with
  | .ok _ => .ok (substituted 10 ran.2.output) shell
  | .error fault => .error (.undefined fault) shell

def setCount (count : List Byte) : Boot Unit := do
  let _ ← runTool board [ascii "--count", count]

def getUpdatemode : Boot Unit := do
  let mode ← runTool board [ascii "--updatemode", ascii "-g"]
  modify fun shell => { shell with otaUpmode := mode }

def getResetreason : Boot Unit := do
  let reason ← runTool board [ascii "--resetreason", ascii "-g"]
  modify fun shell => { shell with resetreason := reason }

/-- `awk '{pirnt $1}'`: the action is an expression, which prints nothing. -/
def awkPirnt (_ : List Byte) : List Byte := []

/-- The loop of `ota_utility`. -/
def otaLoop : List (Option (List Byte)) → Boot Unit
  | [] => throw .waiting
  | none :: arrivals => otaLoop arrivals
  | some line :: arrivals => do
    let val := substituted 10 (awkPirnt line)
    if val = ascii "up_partition.sh" ∨ val = ascii "/usr/bin/up_partition.sh" then
      modify fun shell => { shell with started := shell.started ++ [line] }
    otaLoop arrivals

/-- `ota_utility`; its `get_resetreason` is never called. -/
def otaUtility : Boot Unit := do
  let resetreason := ascii "normal"
  if resetreason = ascii "recovery" then
    match board.command with
    | some command =>
      if board.unzipPath then modify fun shell => { shell with started := shell.started ++ [command] }
      else throw (.exit 1)
    | none => throw (.exit 1)
  else
    if ¬ board.pipe then
      if ¬ board.mkfifo then throw (.exit 1)
    otaLoop board.arrivals

/-- A command that is waited for: its `exit` is not that of the script. -/
def foreground (command : Boot Unit) : Boot Unit := fun shell =>
  match command shell with
  | .error (.exit _) after => .ok () after
  | ran => ran

/-- A command followed by `&`. -/
def background (command : Boot Unit) : Boot Unit :=
  subshell (fun shell after => { shell with started := after.started }) command

def checkOtaBin : Boot Unit :=
  if board.otaTool then pure () else throw (.exit 1)

/-- `ota pipe init`; `command`, which `rm -rf` is given, is not set. -/
def otaPipeInit : Boot Unit := do
  let shell ← get
  if shell.resetreason = ascii "recovery" then foreground (otaUtility board)
  else background (otaUtility board)

/-- `all` -/
def bootAll : Boot Unit := do
  setCount board (ascii "0")
  getResetreason board
  otaPipeInit board
  getUpdatemode board
  getResetreason board

def updatecheck : Boot Unit := do
  checkOtaBin board
  bootAll board

end

/-- The variables as the script sets them first. -/
def BootShell.start (store : Store) : BootShell := ⟨store, 0, [], ascii "normal", ascii "AB"⟩

/-! ## `ota_utility` -/

section
variable {board : Board} {shell : BootShell}

/-- There is a pipe to wait at. -/
def Board.Waits (board : Board) : Prop := board.pipe = true ∨ board.mkfifo = true

instance (board : Board) : Decidable board.Waits := inferInstanceAs (Decidable (_ ∨ _))

end

/-! ## Reading the settings back -/

section
variable {board : Board} {shell : BootShell} {setting : Setting} {value : List Byte}

/-- A process that reads a setting has no value to store. -/
theorem Invocation.Reads.fits {platform : Platform} {stack : Stack} {args : List (List Byte)}
    (reads : Invocation.Reads ⟨platform, stack, args⟩ setting) (clean : ∀ arg ∈ args, IsText arg) :
    Invocation.Fits ⟨platform, stack, args⟩ where
  clean := clean
  short := by
    rw [reads.unset]
    intro value impossible
    cases impossible

end

/-! ## The boot -/

section
variable {host : Host} {device : Device} {board : Board} {reason flag : List Byte}

section
variable {shell : BootShell}

end

/-- The script has read back the reset reason and has taken the update flag for the upgrade mode; it has changed no
setting and started no upgrade; with the reason `recovery` it never gets past `ota_utility`. -/
def Booted (board : Board) (store : Store) (reason flag : List Byte) : Prop :=
  Ensures (updatecheck board) (.start store)
    (fun _ after => ¬ (reason = ascii "recovery" ∧ board.Waits) ∧ after.store = store ∧ after.started = [] ∧
      after.resetreason = reason ∧ after.otaUpmode = shown board.platform .updateflag flag)
    (fun ending after => ending = .waiting ∧ (reason = ascii "recovery" ∧ board.Waits) ∧ after.store = store ∧
      after.started = [] ∧ after.resetreason = reason ∧ after.otaUpmode = ascii "AB")

theorem Booted.waiting {store : Store} (recovery : reason = ascii "recovery" ∧ board.Waits)
    (booted : Booted board store reason flag) :
    ∃ after, updatecheck board (.start store) = .error .waiting after ∧ after.started = [] := by
  obtain ⟨ending, after, ran, rfl, _, _, nothing, _⟩ := Ensures.ended booted fun _ _ returns => returns.1 recovery
  exact ⟨after, ran, nothing⟩

end

end KernelLearning.OtaTool
