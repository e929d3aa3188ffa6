import KernelLearning.UpPartition.Host

/-!
# `up_partition.sh`

The functions of the script.  What `prepare_tmp_rootfs` copies and mounts, the
binary form of a signature, `sync` and what goes to the console are left out:
nothing here depends on them.
-/

namespace KernelLearning.UpPartition

open ShellSemantics

variable (host : Host)

def checkOtaBin : Run Unit :=
  if host.otaTool then pure () else throw (.exit 1)

def getAbPartitionStatus : Run Unit := do
  let status := (← get).partstatus
  setVars fun vars => { vars with abPartitionStatus := status }
  printinfo ("get ab_partition_status " ++ toString status)

/-! ## Verification -/

/-- `sed 's/\= /\=/g'` -/
def sedEquals : List Char → List Char
  | '=' :: ' ' :: rest => '=' :: sedEquals rest
  | character :: rest => character :: sedEquals rest
  | [] => []

/-- The words of `for line in $tmp_file`, for a text in the form of `signature.txt`. -/
def signatureLines (text : String) : List String :=
  (words (String.ofList (sedEquals text.toList))).flatMap host.expand

/-- The file a line names: what stands between its last `(` and the last `)` after it. -/
def updateFileOf (file line : String) : String :=
  file ++ "/" ++ beforeLast ")" (afterLast '(' line)

def signatureOf (line : String) : String := afterLast '=' line

/-- The loop over the lines, which returns `flag`. -/
def verifyLines (file : String) : List String → Run Bool
  | [] => return true
  | line :: lines =>
    if isFile host (updateFileOf file line) then do
      let result ← opensslVerify host (signatureOf line) (updateFileOf file line)
      if result = "Verify OK" then do
        printinfo ("Error: " ++ updateFileOf file line ++ " verify failed")
        return false
      else verifyLines file lines
    else do
      printinfo ("Error: " ++ updateFileOf file line ++ " not exist")
      return false

/-- `verify_rsa_signature $image`.  `cat $signatur_file` names no variable that is set, so
what is read is the standard input; the two commands after the warning are comments. -/
def verifyRsaSignature : Run Unit := do
  let file := (← get).vars.upgradeFilePath
  let flag ←
    if isFile host (file ++ "/signature.txt") then verifyLines host file (signatureLines host host.stdin)
    else do
      printinfo "warning: file signature.txt not exist"
      pure false
  if flag then printinfo "rsa verify signature success !"
  else printinfo "warning: rsa verify signature failed !"
  printprogress "20%"

/-! ## Before the upgrade -/

/-- `[ left -gt right ]`, an error where one of the two is missing. -/
def testGt : Option Nat → Option Nat → Bool
  | some left, some right => left > right
  | _, _ => false

/-- A figure of `df` in a text. -/
def figure : Option Nat → String
  | some value => toString value
  | none => ""

/-- `check_sys_free_space`; `$result` is not set yet, so that the `2` of the error goes to no
file. -/
def checkSysFreeSpace : Run Unit := do
  let userdataFreeSpace := host.df "/userdata" (if host.otaBootmode = "emmc" then "userdata" else "ubi")
  let tmpFreeSpace := host.df "/tmp/" "tmp"
  let upgradeNeedSpace := host.upgradeFileSize / 1024
  printinfo ("upgrade_need_space: " ++ toString upgradeNeedSpace)
  printinfo ("tmp_free_space: " ++ figure tmpFreeSpace)
  printinfo ("userdata_free_space: " ++ figure userdataFreeSpace)
  if testGt (some upgradeNeedSpace) userdataFreeSpace && testGt (some upgradeNeedSpace) tmpFreeSpace then do
    printinfo "Error: not enough space in system"
    throw (.exit 1)
  else if testGt userdataFreeSpace (some upgradeNeedSpace) then
    setVars fun vars => { vars with upgradeFilePath := "/userdata/upgrade" }
  else if testGt tmpFreeSpace (some upgradeNeedSpace) then
    setVars fun vars => { vars with upgradeFilePath := "/tmp" }
  printprogress "10%"

/-- `paramter_init`, which returns the status of its last command. -/
def paramterInit : Run Nat := do
  if host.otaUpmode = "AB" then getAbPartitionStatus
  printprogress "35%"
  return 0

/-- `partition_to_number`: past the loop it returns the status of the last assignment. -/
def partitionToNumber (partname : String) : Nat :=
  (["uboot", "boot", "system"].findIdx? (· = partname)).getD 0

/-- The bits of the status that a run for `partition` flips. -/
def statusMask (partition : String) : UInt64 :=
  if beforeLast "_b" partition = "all" then 0x1E
  else 0x1 <<< UInt64.ofNat (partitionToNumber (beforeLast "_b" partition))

def otaUpdateFlag : Run Unit := do
  updateFlag host ""
  let partition := (← get).vars.partition
  printinfo ("set resetreason " ++ beforeLast "_b" partition)
  setVars fun vars => { vars with abPartitionStatus := vars.abPartitionStatus ^^^ statusMask partition }
  let status := (← get).vars.abPartitionStatus
  -- `ota_tool --partstatus -s`
  modify fun shell => { shell with partstatus := status }
  printinfo ("update status " ++ toString status ++ " finish")

/-! ## Devices -/

def mtdNumberGet (name : String) : Run Unit :=
  match host.mtd name with
  | some device => setVars fun vars => { vars with mtdDevice := "/dev/" ++ device }
  | none => do
    printinfo ("Error: " ++ name ++ " mtd device not exist !")
    appendResult
    throw (.exit 1)

def ubiNumberGet (name : String) : Run Unit :=
  match host.ubi name with
  | some device => setVars fun vars => { vars with ubiDevice := "/dev/" ++ device }
  | none => do
    printinfo ("Error: " ++ name ++ " ubi device not exist !")
    appendResult
    throw (.exit 1)

def mmcPartNumber (name : String) : Run Unit :=
  match host.fdisk name with
  | some partition => setVars fun vars => { vars with partitionId := partition }
  | none => do
    printinfo ("Error: mmc part " ++ name ++ " not found")
    appendResult
    throw (.exit 1)

/-- `/dev/mmcblk0p$1` -/
def mmcDevice (partition : Int) : String := "/dev/mmcblk0p" ++ toString partition

/-! ## The upgrades -/

def updateNorPartitionImg (file partition : String) : Run Nat := do
  mtdNumberGet host partition
  let device := (← get).vars.mtdDevice
  printinfo ("flashcp -A -v " ++ file ++ " " ++ device)
  flash host (.flashcp file device)

/-- `vbmeta_id=$((${partition_id} - ..))`, by the mode of the upgrade. -/
def vbmetaId (partitionId : Nat) : Run Int :=
  if host.otaUpmode = "single" then return partitionId - 1
  else if host.otaUpmode = "AB" then return partitionId - 2
  else do
    printinfo ("Error: upmode " ++ host.otaUpmode ++ " not support!")
    appendResult
    throw (.exit 1)

/-- What `upgrade_kernel` does on eMMC: `ret1` and `ret2`. -/
def emmcKernel (path : String) : Run (Nat × Nat) := do
  mmcPartNumber host "boot"
  let partitionId := (← get).vars.partitionId
  let vbmetaId ← vbmetaId host partitionId
  let ret1 ← flash host (.dd (path ++ "/vbmeta.img") (mmcDevice vbmetaId))
  let ret2 ← flash host (.dd (path ++ "/boot.img") (mmcDevice partitionId))
  return (ret1, ret2)

/-- `upgrade_kernel`.  The boot mode is compared as the word `ota_bootmode`. -/
def upgradeKernel : Run Nat := do
  let path := (← get).vars.upgradeFilePath
  if !isFile host (path ++ "/vbmeta.img") || !isFile host (path ++ "/boot.img") then
    printinfo "Error: file vbmeta.img or boot.img not exist !"
    appendResult
    throw (.exit 1)
  let (ret1, ret2) ←
    if "ota_bootmode" = "nor_flash" then do
      mtdNumberGet host "vbmeta"
      let device := (← get).vars.mtdDevice
      printinfo ("flashcp -v -A " ++ path ++ "/vbmeta.img " ++ device)
      let ret1 ← flash host (.flashcp (path ++ "/vbmeta.img") device)
      mtdNumberGet host "boot"
      let device := (← get).vars.mtdDevice
      printinfo ("flashcp -v -A " ++ path ++ "/boot.img " ++ device)
      let ret2 ← flash host (.flashcp (path ++ "/boot.img") device)
      pure (ret1, ret2)
    else if "ota_bootmode" = "nand_flash" then do
      ubiNumberGet host "vbmeta"
      let device := (← get).vars.ubiDevice
      printinfo ("ubiupdatevol " ++ device ++ " " ++ path ++ "/vbmeta.img ")
      let ret1 ← flash host (.ubiupdatevol device (path ++ "/vbmeta.img"))
      ubiNumberGet host "boot"
      let device := (← get).vars.ubiDevice
      printinfo ("ubiupdatevol " ++ device ++ " " ++ path ++ "/boot.img ")
      let ret2 ← flash host (.ubiupdatevol device (path ++ "/boot.img"))
      pure (ret1, ret2)
    else emmcKernel host path
  if ret1 ≠ 0 || ret2 ≠ 0 then
    printinfo "Errot: vbmeta/boot partition update failed !"
    appendResult
    throw (.exit 1)
  return 0

/-- `upgrade_uboot`.  What its last test looks at is the status of the last assignment, or of
`ubi_number_get`, and both are 0. -/
def upgradeUboot : Run Nat := do
  let path := (← get).vars.upgradeFilePath
  let status ←
    if host.otaBootmode = "nor_flash" then do
      mtdNumberGet host "uboot"
      let device := (← get).vars.mtdDevice
      printinfo ("flashcp -v -A " ++ path ++ "/uboot.img " ++ device)
      let _ret ← flash host (.flashcp (path ++ "/uboot.img") device)
      pure 0
    else if host.otaBootmode = "nand_flash" then do
      ubiNumberGet host "uboot"
      pure 0
    else do
      mmcPartNumber host "uboot"
      let device := mmcDevice (← get).vars.partitionId
      if host.otaUpmode = "single" then
        let _ ← flash host (.readBack device (path ++ "/uboot.img"))
      printinfo ("dd if=" ++ path ++ "/uboot.img of=" ++ device ++ " bs=512")
      let _ ← flash host (.dd (path ++ "/uboot.img") device)
      pure 0
  if status ≠ 0 then
    printinfo "Error: write partition error"
    appendResult
    throw (.exit 1)
  return 0

/-- What `upgrade_system` does on eMMC in the mode `AB` or from the recovery system. -/
def ddSystem (path : String) : Run Nat := do
  mmcPartNumber host "system"
  let device := mmcDevice (← get).vars.partitionId
  printinfo ("dd if=" ++ path ++ "/system.img of=" ++ device ++ " bs=512")
  let ret ← flash host (.dd (path ++ "/system.img") device)
  if ret ≠ 0 then
    printinfo "Error: system image write failed !"
    appendResult
    throw (.exit 1)
  return 0

/-- What `upgrade_system` does on eMMC in the mode `single`. -/
def busyboxDdSystem (path : String) : Run Nat := do
  mmcPartNumber host "system"
  let device := mmcDevice (← get).vars.partitionId
  printinfo ("busybox dd if=" ++ path ++ "/system.img of=" ++ device ++ " bs=512")
  let _ ← flash host (.busyboxDd (path ++ "/system.img") device)
  return 0

/-- `upgrade_system`, which returns the status of its last command. -/
def upgradeSystem : Run Nat := do
  if !host.rootListed then
    setVars fun vars => { vars with boardStatus := "recovery" }
  let path := (← get).vars.upgradeFilePath
  let boardStatus := (← get).vars.boardStatus
  if host.otaBootmode = "nor_flash" then
    mtdNumberGet host "system"
    let device := (← get).vars.mtdDevice
    printinfo ("flashcp -v -A " ++ path ++ "/system.img " ++ device)
    flash host (.flashcp (path ++ "/system.img") device)
  else if host.otaBootmode = "nor_flash" then
    mtdNumberGet host "system"
    let device := (← get).vars.mtdDevice
    printinfo ("flash_erase -q " ++ device ++ " 0x0 ")
    let _ ← flash host (.flashErase device)
    printinfo ("nandwrite -a -k -m -q -p " ++ device ++ " " ++ path ++ "/system.img")
    flash host (.nandwrite device (path ++ "/system.img"))
  else if host.otaUpmode = "AB" || boardStatus = "recovery" then ddSystem host path
  else if host.otaUpmode = "single" then busyboxDdSystem host path
  else return 0

/-- `upgrade_all`.  `$update_file` and `$ota_bootmod` are never set. -/
def upgradeAll : Run Nat := do
  if host.otaBootmode = "nor_flash" then
    throw (.exit 1)
  let fileImage := (← get).vars.upgradeFilePath ++ "/" ++ host.image
  printprogress "upgrade disk.img"
  let otaBootmod := ""
  let device := (← get).vars.mtdDevice
  if host.otaBootmode = "nor_flash" then
    printinfo ("falshcp -v -A " ++ fileImage ++ " " ++ device)
    flash host (.flashcp fileImage device)
  else if otaBootmod = "nand_flash" then
    printinfo ("flash_erase " ++ device ++ " 0x0 0")
    let _ ← flash host (.flashErase device)
    printinfo ("nandwrite -a -k -m " ++ device ++ " " ++ fileImage)
    flash host (.nandwrite device fileImage)
  else
    printinfo ("dd if=" ++ fileImage ++ " of=/dev/mmcblk0 bs=512")
    let _ ← flash host (.busyboxDd fileImage "/dev/mmcblk0")
    printinfo "100%"
    match host.reboot with
    | some code => return code
    | none => throw .reboot

/-- The tests of the partition's name in `update_img`. -/
def upgradePartition (partition : String) : Run Nat :=
  if partition = "uboot" then upgradeUboot host
  else if partition = "boot" then upgradeKernel host
  else if partition = "system" then upgradeSystem host
  else do
    printinfo ("Error: partition " ++ partition ++ " not support !")
    appendResult
    throw (.exit 1)

/-- The part of `update_img` that writes the image, up to `ret=$?`. -/
def writeImg : Run Nat := do
  let partition := (← get).vars.partition
  let file := (← get).vars.upgradeFilePath ++ "/tmpdir/update.sh"
  if partition = "all" then upgradeAll host
  else if host.otaBootmode = "nor_flash" then
    if isFile host file then flash host (.updateSh file)
    else updateNorPartitionImg host host.image partition
  else
    commandSubstitution (mmcPartNumber host partition)
    upgradePartition host partition

def updateImg : Run Nat := do
  setVars fun vars => { vars with partition := withoutSuffix ".zip" vars.partition }
  let ret ← writeImg host
  if ret = 0 then
    printinfo "update_img success!"
    printprogress "90%"
    return ret
  else
    updateFlag host "13"
    return 1

/-! ## The script -/

def all : Run Unit := do
  checkSysFreeSpace host
  verifyRsaSignature host
  let status ← paramterInit host
  if status ≠ 0 then
    printinfo "Error: ota update paramter check failed"
  else
    -- set status befor upgrade
    otaUpdateFlag host
    let _ ← updateImg host

/-- A run of the script for `$1`, from the status that is stored. -/
def upPartition : Run Unit := do
  checkOtaBin host
  all host

/-! ## What the look-ups do to a run -/

section Rules

variable {shell : Shell} {returns : Unit → Shell → Prop} {ends : Ending → Shell → Prop}

theorem ensures_mtdNumberGet (name : String) :
    Ensures (mtdNumberGet host name) shell returns ends ↔
      match host.mtd name with
      | some device => returns () { shell with vars := { shell.vars with mtdDevice := "/dev/" ++ device } }
      | none => ends (.exit 1) (shell.reportError ("Error: " ++ name ++ " mtd device not exist !")) := by
  simp only [mtdNumberGet]
  cases host.mtd name <;> rfl

theorem ensures_ubiNumberGet (name : String) :
    Ensures (ubiNumberGet host name) shell returns ends ↔
      match host.ubi name with
      | some device => returns () { shell with vars := { shell.vars with ubiDevice := "/dev/" ++ device } }
      | none => ends (.exit 1) (shell.reportError ("Error: " ++ name ++ " ubi device not exist !")) := by
  simp only [ubiNumberGet]
  cases host.ubi name <;> rfl

theorem ensures_mmcPartNumber (name : String) :
    Ensures (mmcPartNumber host name) shell returns ends ↔
      match host.fdisk name with
      | some partition => returns () { shell with vars := { shell.vars with partitionId := partition } }
      | none => ends (.exit 1) (shell.reportError ("Error: mmc part " ++ name ++ " not found")) := by
  simp only [mmcPartNumber]
  cases host.fdisk name <;> rfl

/-- After a look-up of a partition in a shell of its own: an error is left behind, and the
script goes on. -/
def Shell.lookedUp (shell : Shell) (name : String) : Shell :=
  match host.fdisk name with
  | some _ => shell
  | none => shell.reportError ("Error: mmc part " ++ name ++ " not found")

theorem leaves_mmcPartNumber (name : String) (shell : Shell) :
    { leaves? (mmcPartNumber host name) shell with vars := shell.vars } = shell.lookedUp host name := by
  simp only [mmcPartNumber, Shell.lookedUp]
  cases host.fdisk name <;> rfl

theorem ensures_vbmetaId {returns : Int → Shell → Prop} (partitionId : Nat) :
    Ensures (vbmetaId host partitionId) shell returns ends ↔
      if host.otaUpmode = "single" then returns (partitionId - 1) shell
      else if host.otaUpmode = "AB" then returns (partitionId - 2) shell
      else ends (.exit 1) (shell.reportError ("Error: upmode " ++ host.otaUpmode ++ " not support!")) := by
  simp only [vbmetaId, ensures_ite]
  rfl

end Rules

end KernelLearning.UpPartition
