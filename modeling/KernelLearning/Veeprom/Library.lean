import KernelLearning.CSemantics.Platform
import KernelLearning.Veeprom.Interface

/-!
# The veeprom library

The functions of `veeprom.c`, each as a program over the system calls.  The
static variables are passed in and handed back; the logging macros are empty in
the source and are left out.
-/

namespace KernelLearning.Veeprom

open KernelLearning.CSemantics KernelLearning.Interaction KernelLearning.Interaction.Program

/-- Every character lies between `'0'` and `'f'`; returns 1 at the first that does not. -/
def parameterCheck (platform : Platform) : List Byte → Int
  | [] => 0
  | byte :: rest =>
    if platform.char byte < 48 ∨ platform.char byte > 102 then 1 else parameterCheck platform rest

def isParameterValid (statics : Statics) (offset size : Int) : Bool :=
  let offsetRight := toInt32 (toUInt32 ((statics.endSector - statics.startSector + 1) * sectorSize))
  let maxSize := offsetRight - 0
  !decide (toInt32 (offset + size) > maxSize)

/-! ## Finding and opening the device -/

/-- The loop over `d_name`: the last number in the name, printed into 16 bytes. -/
def mtdNumber : List Byte → List Byte → List Byte
  | [], mtdNumTmp => mtdNumTmp
  | byte :: rest, mtdNumTmp =>
    if isDigit byte then
      mtdNumber (rest.dropWhile isDigit) ((decimal (strtol (byte :: rest))).take 15)
    else mtdNumber rest mtdNumTmp
termination_by name => name.length
decreasing_by
  · have shorter : (rest.dropWhile isDigit).length ≤ rest.length :=
      (List.dropWhile_sublist isDigit).length_le
    simp only [List.length_cons]
    omega
  · simp

def getMtdnumPartname (targetNm : List Byte) : List MtdEntry → Int
  | [] => -1
  | entry :: rest =>
    match entry.nameFile with
    | none => getMtdnumPartname targetNm rest
    | some contents =>
      let mtdNameBuf := (contents.take 128).takeWhile (· ≠ 0)
      -- `strlen(mtd_name_buf) - 1` wraps around for an empty file
      let count := if mtdNameBuf.length = 0 then 2 ^ 64 - 1 else mtdNameBuf.length - 1
      if strncmpEq count mtdNameBuf targetNm then atoi (mtdNumber entry.name [])
      else getMtdnumPartname targetNm rest

/-- Naively convert UTF16-LE to 7 bits, into a zeroed `char[GPT_NAME_LEN_BYTES]`.
`sizeof(str)` is the size of a pointer. -/
def convertPartname (sizeofPointer : Nat) (str : List UInt16) : List Byte :=
  let labelMax := min (gptNameLenBytes - 1) sizeofPointer
  (List.range labelMax).map (fun labelCount =>
      let c := (str.getD labelCount 0 &&& 0xff).toUInt8
      if c ≠ 0 ∧ ¬ isPrint c then 33 else c) ++
    List.replicate (gptNameLenBytes - labelMax) 0

/-- The loop over the partition entries from index `i` on; the last match stays. -/
def gptDevicePath (sizeofPointer : Nat) : Nat → List GptEntry → DevicePath → DevicePath
  | _, [], devicePath => devicePath
  | i, entry :: rest, devicePath =>
    let nameTranslated := convertPartname sizeofPointer entry.partName
    gptDevicePath sizeofPointer (i + 1) rest
      (if strcmp nameTranslated (ascii "veeprom" ++ [0]) = some 0 then .mmcblk0p (i + 1)
        else devicePath)

/-- The part of `veeprom_init` that selects `device_path` by boot mode; false where
it returns -1. -/
def selectDevice (host : Host) (statics : Statics) : Code (Bool × Statics) :=
  match statics.bootmode with
  | .spinand => do
    let present ← Call.accessUbi
    if present then return (true, { statics with devicePath := .ubi })
    let listing ← Call.listMtd
    let mtdNum := match listing with
      | none => -1
      | some entries => getMtdnumPartname (ascii "boot") entries
    if mtdNum < 0 then return (false, statics)
    let attached ← Call.attachUbi mtdNum
    if !attached then return (false, statics)
    return (true, { statics with devicePath := .ubi })
  | .spinor => do
    let listing ← Call.listMtd
    let mtdNum := match listing with
      | none => -1
      | some entries => getMtdnumPartname (ascii "veeprom") entries
    return (true, { statics with devicePath := .mtd mtdNum })
  | .emmc => do
    match ← Call.readGpt with
    | none =>
      let _ ← Call.printf (ascii "mmc:/dev/mmcblk0 device not found!\n")
      return (false, statics)
    | some entries =>
      if entries.length ≠ gptEntryMax then
        let _ ← Call.printf (ascii "read short: " ++ decimal entries.length ++ ascii "\n")
        return (false, statics)
      return (true, { statics with
        devicePath := gptDevicePath host.sizeofPointer 0 entries statics.devicePath })

def veepromInit (host : Host) (statics : Statics) : Code (Int × Statics) := do
  let fd ← Call.openDevice statics.devicePath
  let statics := { statics with fd := fd }
  if fd < 0 then
    let (found, statics) ← selectDevice host { statics with bootmode := getBootMode host }
    if !found then return (-1, statics)
    let statics := { statics with startSector := veepromStartSector, endSector := veepromEndSector }
    let fd ← Call.openDevice statics.devicePath
    let statics := { statics with fd := fd }
    if fd < 0 then return (-1, statics)
    return (0, statics)
  else return (0, statics)

def veepromExit (statics : Statics) : Code Statics := do
  let _ ← Call.sync
  let _ ← Call.close statics.fd
  return { statics with fd := -1 }

/-- `if (fd == -1) veeprom_init();`, whose result is ignored. -/
def ensureOpen (host : Host) (statics : Statics) : Code Statics :=
  if statics.fd = -1 then do
    let (_, statics) ← veepromInit host statics
    return statics
  else return statics

/-! ## The sector loops -/

/-- `offset_inner` and `operate_count` of sector `sector_left + i`.  Unsigned
arithmetic is modulo 2^32 throughout, so it is reduced once, at the assignment. -/
def splitSector (statics : Statics) (sectorLeft : Int) (i : Nat) (offset size : Int) : Int × Int :=
  let offsetInner := toUInt32 (offset - (sectorLeft + i - statics.startSector) * sectorSize)
  let remainInner := toUInt32 (sectorSize - offsetInner)
  (offsetInner, toInt32 (if remainInner ≥ toUInt32 size then toUInt32 size else remainInner))

/-- `sector_left` and `sector_count`. -/
def sectorSpan (statics : Statics) (offset size : Int) : Int × Nat :=
  let sectorLeft := toUInt32 (statics.startSector + offset.tdiv sectorSize)
  let sectorRight :=
    toUInt32 (statics.startSector + (toInt32 (toInt32 (offset + size) - 1)).tdiv sectorSize)
  (sectorLeft, (toUInt32 (sectorRight - sectorLeft + 1)).toNat)

def seekSector (statics : Statics) (sectorLeft : Int) (i : Nat) : Code Int :=
  Call.lseek statics.fd (toUInt32 ((sectorLeft + i) * sectorSize))

/-- Clear the buffer, seek to a sector and read the buffer full; false where the
source returns -1. -/
def loadSector (statics : Statics) (sectorLeft : Int) (i : Nat) : Code (Bool × Statics) := do
  let statics := statics.withBuffer .zero
  let position ← seekSector statics sectorLeft i
  if position < 0 then return (false, statics)
  let answer ← Call.read statics.fd
  match answer with
  | none => return (false, statics)
  | some chunk => return (true, statics.withBuffer (statics.buffer.fill chunk))

/-- Seek back to the sector and write the whole buffer. -/
def storeSector (statics : Statics) (sectorLeft : Int) (i : Nat) : Code Bool := do
  let position ← seekSector statics sectorLeft i
  if position < 0 then return false
  let written ← Call.write statics.fd statics.buffer.bytes
  return !decide (written < 0)

/-- One iteration of `veeprom_read`; `pos` is how far `buf` has moved. -/
def readSector (sectorLeft : Int) (i : Nat) (statics : Statics) (offset size pos : Int)
    (buf : List Byte) : Code (Bool × List Byte × Statics) := do
  let (loaded, statics) ← loadSector statics sectorLeft i
  if !loaded then return (false, buf, statics)
  let (offsetInner, operateCount) := splitSector statics sectorLeft i offset size
  let data ← attempt (statics.buffer.copyOut offsetInner operateCount)
  let buf ← attempt (callerWrite buf pos data)
  return (true, buf, statics)

/-- The `for` loop of `veeprom_read`, with `remaining` iterations left. -/
def readSectors (sectorLeft : Int) :
    (remaining i : Nat) → Statics → (offset size pos : Int) → List Byte →
      Code (Int × List Byte × Statics)
  | 0, _, statics, _, _, _, buf => return (0, buf, statics)
  | remaining + 1, i, statics, offset, size, pos, buf => do
    let (copied, buf, statics) ← readSector sectorLeft i statics offset size pos buf
    if !copied then return (-1, buf, statics)
    let operateCount := (splitSector statics sectorLeft i offset size).2
    readSectors sectorLeft remaining (i + 1) statics (toInt32 (offset + operateCount))
      (toInt32 (size - operateCount)) (pos + operateCount) buf

/-- `ioctl(fd, MEMERASE, &argp)` for the first 64 KiB; its result is never looked at. -/
def eraseBlock (erase : Bool) (statics : Statics) : Code Unit := do
  if erase then
    let _ ← Call.memErase statics.fd 0 eraseLength
    return ()
  else return ()

/-- One iteration of `veeprom_write` and `veeprom_clear`: `patch pos count` is what
goes into the buffer, and `erase` says whether the flash is erased between reading
and writing the sector. -/
def updateSector (erase : Bool) (patch : (pos count : Int) → Except Fault (List Byte))
    (sectorLeft : Int) (i : Nat) (statics : Statics) (offset size pos : Int) :
    Code (Bool × Statics) := do
  let (loaded, statics) ← loadSector statics sectorLeft i
  if !loaded then return (false, statics)
  eraseBlock erase statics
  let (offsetInner, operateCount) := splitSector statics sectorLeft i offset size
  let buffer ← attempt (statics.buffer.copyIn offsetInner operateCount (patch pos operateCount))
  let stored ← storeSector (statics.withBuffer buffer) sectorLeft i
  return (stored, statics.withBuffer buffer)

/-- The `for` loops of `veeprom_write` and `veeprom_clear`. -/
def updateSectors (erase : Bool) (patch : (pos count : Int) → Except Fault (List Byte))
    (sectorLeft : Int) :
    (remaining i : Nat) → Statics → (offset size pos : Int) → Code (Int × Statics)
  | 0, _, statics, _, _, _ => return (0, statics)
  | remaining + 1, i, statics, offset, size, pos => do
    let (updated, statics) ← updateSector erase patch sectorLeft i statics offset size pos
    if !updated then return (-1, statics)
    let operateCount := (splitSector statics sectorLeft i offset size).2
    updateSectors erase patch sectorLeft remaining (i + 1) statics (toInt32 (offset + operateCount))
      (toInt32 (size - operateCount)) (pos + operateCount)

/-! ## The interface -/

/-- Returns the result, the caller's buffer and the static variables. -/
def veepromRead (host : Host) (statics : Statics) (offset : Int) (buf : List Byte) (size : Int) :
    Code (Int × List Byte × Statics) :=
  if getBootMode host = .spinand then do
    let statics ← ensureOpen host (statics.withBuffer .zero)
    let answer ← Call.read statics.fd
    let buffer := statics.buffer.afterRead answer
    let data ← attempt (buffer.copyOut offset size)
    let buf ← attempt (callerWrite buf 0 data)
    let statics ← veepromExit (statics.withBuffer buffer)
    return (0, buf, statics)
  else if !isParameterValid statics offset size then return (-1, buf, statics)
  else
    let (sectorLeft, sectorCount) := sectorSpan statics offset size
    readSectors sectorLeft sectorCount 0 statics offset size 0 buf

def veepromWrite (host : Host) (statics : Statics) (offset : Int) (buf : List Byte) (size : Int) :
    Code (Int × Statics) :=
  if getBootMode host = .spinand then do
    let statics ← ensureOpen host (statics.withBuffer .zero)
    let answer ← Call.read statics.fd
    let buffer := statics.buffer.afterRead answer
    let buffer ← attempt (buffer.copyIn offset size (callerRead buf 0 size))
    let statics := statics.withBuffer buffer
    let started ← Call.ubiVolumeUpdate statics.fd bufferSize
    if started ≠ 0 then return (-1, statics)
    -- the result of this write is never looked at
    let _ ← Call.write statics.fd buffer.bytes
    let statics ← veepromExit statics
    return (0, statics)
  else if !isParameterValid statics offset size then return (-1, statics)
  else
    let (sectorLeft, sectorCount) := sectorSpan statics offset size
    updateSectors (statics.bootmode == .spinor) (callerRead buf) sectorLeft sectorCount 0 statics
      offset size 0

/-- `memset(buf, 0, sizeof(buf))` on the block `malloc` returned: `sizeof(buf)` is the
size of the pointer. -/
def clearHeap (host : Host) (heap : List Byte) : Except Fault (List Byte) :=
  if host.sizeofPointer ≤ heap.length then
    .ok (List.replicate host.sizeofPointer 0 ++ heap.drop host.sizeofPointer)
  else .error .heapBlock

/-- `heap` is the block that `malloc(size)` returns. -/
def veepromClear (host : Host) (statics : Statics) (offset size : Int) (heap : List Byte) :
    Code (Int × Statics) :=
  if getBootMode host = .spinand then do
    let buf ← attempt (clearHeap host heap)
    veepromWrite host statics offset buf size
  else if !isParameterValid statics offset size then return (-1, statics)
  else
    let (sectorLeft, sectorCount) := sectorSpan statics offset size
    updateSectors false (fun _ count => .ok (List.replicate count.toNat 0)) sectorLeft sectorCount 0
      statics offset size 0

def veepromFormat (host : Host) (statics : Statics) (heap : List Byte) : Code (Int × Statics) :=
  veepromClear host statics 0 256 heap

end KernelLearning.Veeprom
