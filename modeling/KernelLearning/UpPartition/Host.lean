import KernelLearning.ShellSemantics.Expansion
import KernelLearning.ShellSemantics.Script

/-!
# What `up_partition.sh` runs on

The board as the script sees it, the state that a run changes, and the functions
that write the logs and call `ota_tool`.  Writing a log file succeeds.
-/

namespace KernelLearning.UpPartition

open ShellSemantics

/-! ## The board -/

/-- What the commands of the script find; a list of commands is numbered in the order in
which a run gives them. -/
structure Host where
  otaBootmode : String
  otaUpmode : String
  /-- `$2` -/
  image : String
  /-- Whether `/usr/bin/ota_tool` is a file. -/
  otaTool : Bool
  /-- What `ota_tool --updateflag -g` prints, the first time, the second time and so on. -/
  updateFlag : Nat → String
  /-- The fourth column of the line with `pattern` that `df -k` prints about a file system. -/
  df : (fileSystem pattern : String) → Option Nat
  /-- Whether `df -h` lists `/dev/root`. -/
  rootListed : Bool
  /-- The total that `unzip -l` prints about the package. -/
  upgradeFileSize : Nat
  /-- The files there are once the package is unpacked, by their paths, and what they hold. -/
  file : String → Option String
  /-- What the script gets on its standard input. -/
  stdin : String
  /-- The file names a word of an unquoted expansion stands for, or the word. -/
  expand : String → List String
  /-- What `openssl dgst -verify` prints about the signature, as text, of a file. -/
  openssl : (signature file : String) → String
  /-- The directory of `/sys/class/mtd` whose `name` is this. -/
  mtd : String → Option String
  /-- The directory of `/sys/class/ubi` whose `name` is this. -/
  ubi : String → Option String
  /-- The number of the partition that `busybox fdisk -l` lists under this name. -/
  fdisk : String → Option Nat
  /-- The exit code of a flashing command. -/
  exitCode : Nat → Nat
  /-- The exit code of `busybox reboot -f`, if the board is still up. -/
  reboot : Option Nat

/-- A flashing command, with the file it writes and the device. -/
inductive FlashCommand where
  | flashcp (file device : String)
  | ubiupdatevol (device file : String)
  | flashErase (device : String)
  | nandwrite (device file : String)
  | dd (input output : String)
  | busyboxDd (input output : String)
  /-- `dd` from a partition into the file that is written to it next. -/
  | readBack (device file : String)
  /-- `update.sh` of the package. -/
  | updateSh (file : String)
  deriving DecidableEq

/-- What a run did that is of interest afterwards, with its outcome. -/
inductive Event where
  /-- `openssl` verified the signature of `file` and printed `answer`. -/
  | verified (file answer : String)
  | flashed (command : FlashCommand) (code : Nat)
  deriving DecidableEq

def Event.isFlashed : Event → Bool
  | .flashed _ _ => true
  | .verified _ _ => false

/-! ## A run -/

/-- The variables of the script. -/
structure Vars where
  partition : String
  upgradeFilePath : String
  abPartitionStatus : UInt64
  mtdDevice : String
  ubiDevice : String
  partitionId : Nat
  boardStatus : String

/-- The variables, the lines appended to the log files, what was given to `ota_tool`, and what
was verified and flashed. -/
structure Shell where
  vars : Vars
  info : List String
  progress : List String
  result : List String
  partstatus : UInt64
  updateFlags : List String
  events : List Event

/-- A line of the logs. -/
@[irreducible] def otaInfo (text : String) : String := "[OTA_INFO] " ++ text

theorem otaInfo_injective {text other : String} (same : otaInfo text = otaInfo other) : text = other := by
  simpa [otaInfo] using same

/-- An error is logged, and `2` is appended to the result file. -/
def Shell.reportError (shell : Shell) (error : String) : Shell :=
  { shell with info := shell.info ++ [otaInfo error], result := shell.result ++ ["2"] }

/-- How many flashing commands were given. -/
def Shell.flashCount (shell : Shell) : Nat := shell.events.countP Event.isFlashed

/-- Before a run for `$1`, with what `ota_tool` stores as the status. -/
def Shell.start (partition : String) (status : UInt64) : Shell where
  vars :=
    { partition, upgradeFilePath := "", abPartitionStatus := 0, mtdDevice := "", ubiDevice := ""
      partitionId := 0, boardStatus := "" }
  info := []
  progress := []
  result := []
  partstatus := status
  updateFlags := []
  events := []

inductive Ending where
  | exit (code : Nat)
  /-- The board went down. -/
  | reboot
  deriving DecidableEq

abbrev Run (α : Type) := Script Ending Shell α

/-! ## The logs -/

def printinfo (text : String) : Run Unit :=
  modify fun shell => { shell with info := shell.info ++ [otaInfo text] }

def printprogress (text : String) : Run Unit :=
  modify fun shell => { shell with progress := shell.progress ++ [otaInfo text] }

/-- `echo "2" >> $update_result` -/
def appendResult : Run Unit :=
  modify fun shell => { shell with result := shell.result ++ ["2"] }

def setVars (change : Vars → Vars) : Run Unit :=
  modify fun shell => { shell with vars := change shell.vars }

/-- `$(..)` keeps the variables of the shell it stands in. -/
def commandSubstitution (script : Run Unit) : Run Unit :=
  subshell (fun before after => { after with vars := before.vars }) script

/-! ## Commands with an outcome -/

variable (host : Host)

/-- A flashing command, which returns its exit code. -/
def flash (command : FlashCommand) : Run Nat := do
  let code := host.exitCode (← get).flashCount
  modify fun shell => { shell with events := shell.events ++ [.flashed command code] }
  return code

/-- `openssl dgst -verify $pubkey -sha256 -signature $binary $update_file`, where `$binary`
holds the bytes of `signature`. -/
def opensslVerify (signature file : String) : Run String := do
  let answer := host.openssl signature file
  modify fun shell => { shell with events := shell.events ++ [.verified file answer] }
  return answer

/-- `[ -f path ]` -/
def isFile (path : String) : Bool := (host.file path).isSome

/-- `update_flag $1` -/
def updateFlag (value : String) : Run Unit := do
  let flag := host.updateFlag (← get).updateFlags.length
  modify fun shell => { shell with updateFlags := shell.updateFlags ++ [value] }
  if flag = value then
    printinfo ("update flag " ++ flag ++ " success ! ")
  else do
    printinfo ("Error: update flag " ++ flag ++ " failed !")
    appendResult

/-! ## What the commands do to a run -/

section Rules

variable {shell : Shell} {returns : Unit → Shell → Prop} {ends : Ending → Shell → Prop}

@[simp] theorem ensures_printinfo (text : String) :
    Ensures (printinfo text) shell returns ends ↔
      returns () { shell with info := shell.info ++ [otaInfo text] } := Iff.rfl

@[simp] theorem ensures_printprogress (text : String) :
    Ensures (printprogress text) shell returns ends ↔
      returns () { shell with progress := shell.progress ++ [otaInfo text] } := Iff.rfl

@[simp] theorem ensures_appendResult :
    Ensures appendResult shell returns ends ↔ returns () { shell with result := shell.result ++ ["2"] } := Iff.rfl

@[simp] theorem ensures_setVars (change : Vars → Vars) :
    Ensures (setVars change) shell returns ends ↔ returns () { shell with vars := change shell.vars } := Iff.rfl

@[simp] theorem ensures_commandSubstitution (script : Run Unit) :
    Ensures (commandSubstitution script) shell returns ends ↔
      returns () { leaves? script shell with vars := shell.vars } := Iff.rfl

@[simp] theorem ensures_flash {returns : Nat → Shell → Prop} (command : FlashCommand) :
    Ensures (flash host command) shell returns ends ↔
      returns (host.exitCode shell.flashCount)
        { shell with events := shell.events ++ [.flashed command (host.exitCode shell.flashCount)] } := Iff.rfl

@[simp] theorem ensures_opensslVerify {returns : String → Shell → Prop} (signature file : String) :
    Ensures (opensslVerify host signature file) shell returns ends ↔
      returns (host.openssl signature file)
        { shell with events := shell.events ++ [.verified file (host.openssl signature file)] } := Iff.rfl

end Rules

end KernelLearning.UpPartition
