import KernelLearning.ShellSemantics.Files
import KernelLearning.ShellSemantics.Loops

/-!
# `util_auth.sh`

`hash_image`, which hashes an image of up to 32 MiB by `process_hash_set` and a
longer one by `process_hash_set_lv3`.  The script runs under `set -e`: a command
that fails ends it, which is `none` here.
-/

namespace KernelLearning.SafeBoot

open Bytes ShellSemantics

/-! ## Constants -/

/-- A SHA-256 digest has 256 bits. -/
def hashSize : Nat := 32
/-- SHA-256 works on blocks of 512 bits. -/
def hashBlockSize : Nat := 64
def blockSize : Nat := 32768
/-- 32M, the largest image that is hashed in two levels. -/
def hashSetL3BlkSz : Nat := 33554432

theorem blockSize_pos : 0 < blockSize := by decide

/-! ## The directory -/

/-- The files of a run with the name prefix `${2}`; `other` is any file not named here. -/
inductive FileName where
  | other (name : String)
  /-- `${2}_l2` -/
  | l2
  /-- `${2}_part${i}` -/
  | part (i : Nat)
  /-- `${2}_part${i}_hash.text` -/
  | partHashText (i : Nat)
  /-- `${2}_part${i}_hash.bin` -/
  | partHashBin (i : Nat)
  /-- `${2}_hash.text` -/
  | hashText
  /-- `${2}_hash.bin` -/
  | hashBin
  /-- `${2}_l2_${j}` -/
  | l2Of (j : Nat)
  /-- `${2}_l2_${j}_hash.bin` -/
  | l2OfHashBin (j : Nat)
  /-- `${2}_part_${j}_${i}` -/
  | partOf (j i : Nat)
  /-- `${2}_part_${j}_${i}_hash.bin` -/
  | partOfHashBin (j i : Nat)
  deriving DecidableEq

/-- `openssl dgst`: the digest of `-binary`, and the line about a file it writes without. -/
structure OpenSsl where
  sha256 : List UInt8 → List UInt8
  report : FileName → List UInt8 → List UInt8

/-- The files of the directory, and what was hashed so far, each with its file. -/
structure Shell where
  files : Files FileName
  hashed : List (FileName × List UInt8)

/-- A directory that holds one image. -/
def directoryOf (image : List UInt8) : Files FileName :=
  fun file => if file = .other "image" then some image else none

theorem directoryOf_image (image : List UInt8) : directoryOf image (.other "image") = some image := if_pos rfl

/-- The directory before a run. -/
def Shell.start (files : Files FileName) : Shell := ⟨files, []⟩

/-- `dd if=source of=target skip=.. seek=.. bs=1 count=.. [conv=notrunc]` -/
def Shell.dd (shell : Shell) (source target : FileName) (skip seek count : Nat) (notrunc : Bool) :
    Option Shell :=
  (shell.files.dd source target skip seek count notrunc).map fun files => { shell with files }

/-- `dd if=/dev/zero of=target bs=1 count=..` -/
def Shell.ddZero (shell : Shell) (target : FileName) (count : Nat) : Shell :=
  { shell with files := shell.files.ddZero target count }

def Shell.cp (shell : Shell) (source target : FileName) : Option Shell :=
  (shell.files.cp source target).map fun files => { shell with files }

/-- `openssl dgst -sha256 -out target source` -/
def Shell.dgst (shell : Shell) (openssl : OpenSsl) (target source : FileName) : Option Shell :=
  (shell.files source).map fun bytes =>
    { files := shell.files.write target (openssl.report source bytes), hashed := shell.hashed ++ [(source, bytes)] }

/-- `openssl dgst -sha256 -binary -out target source` -/
def Shell.dgstBinary (shell : Shell) (openssl : OpenSsl) (target source : FileName) : Option Shell :=
  (shell.files source).map fun bytes =>
    { files := shell.files.write target (openssl.sha256 bytes), hashed := shell.hashed ++ [(source, bytes)] }

/-! ## `process_hash_set` -/

/-- `hash_set_l2_sz`: the hashes of `blk_num` blocks, up to a multiple of `hash_block_size`. -/
def hashSetL2Sz (blkNum : Nat) : Nat :=
  if blkNum * hashSize % hashBlockSize ≠ 0 then
    blkNum * hashSize + hashBlockSize - blkNum * hashSize % hashBlockSize
  else blkNum * hashSize

theorem le_hashSetL2Sz (blkNum : Nat) : blkNum * hashSize ≤ hashSetL2Sz blkNum := by
  have bound : blkNum * hashSize % hashBlockSize < hashBlockSize := Nat.mod_lt _ (by decide)
  simp only [hashSetL2Sz]
  split <;> omega

/-- The variables that the loop of `process_hash_set` changes. -/
structure HashSetLoop where
  shell : Shell
  imgCurr : Nat
  hashCurr : Nat
  blkMod : Nat

/-- The four commands both branches of the loop give, with their `count`. -/
def Shell.hashPart (shell : Shell) (openssl : OpenSsl) (image : FileName) (i imgCurr hashCurr count : Nat) :
    Option Shell := do
  let shell ← shell.dd image (.part i) imgCurr 0 count false
  let shell ← shell.dgst openssl (.partHashText i) (.part i)
  let shell ← shell.dgstBinary openssl (.partHashBin i) (.part i)
  shell.dd (.partHashBin i) .l2 0 hashCurr hashSize true

/-- The body of `for i in $(seq 1 $blk_num)`. -/
def processHashSetBody (openssl : OpenSsl) (image : FileName) (blkNum i : Nat) (loop : HashSetLoop) :
    Option HashSetLoop :=
  if i ≠ blkNum then do
    let shell ← loop.shell.hashPart openssl image i loop.imgCurr loop.hashCurr blockSize
    some { loop with shell, imgCurr := loop.imgCurr + blockSize, hashCurr := loop.hashCurr + hashSize }
  else do
    let blkMod := if loop.blkMod = 0 then blockSize else loop.blkMod
    let shell ← loop.shell.hashPart openssl image i loop.imgCurr loop.hashCurr blkMod
    some { loop with shell, blkMod }

/-- `process_hash_set $1 $2` -/
def processHashSet (openssl : OpenSsl) (image : FileName) (shell : Shell) : Option Shell := do
  let imgSize := (← shell.files image).length
  let blkMod := imgSize % blockSize
  let blkNum := if blkMod ≠ 0 then imgSize / blockSize + 1 else imgSize / blockSize
  let shell := shell.ddZero .l2 (hashSetL2Sz blkNum)
  let loop ← forSeq blkNum (processHashSetBody openssl image blkNum) ⟨shell, 0, 0, blkMod⟩
  if imgSize > blockSize then
    let shell ← loop.shell.dgst openssl .hashText .l2
    shell.dgstBinary openssl .hashBin .l2
  else
    let shell ← loop.shell.cp (.partHashBin 1) .hashBin
    shell.cp (.partHashText 1) .hashText

/-! ## `process_hash_set_lv3` -/

/-- The variables that the loops of `process_hash_set_lv3` change. -/
structure Lv3Loop where
  shell : Shell
  imgCurr : Nat
  hashCurr : Nat
  l1BlkHashSz : Nat
  l2HashCurr : Nat

/-- The body of `for i in $(seq 1 $l1_blk_num)`, in group `j`. -/
def lv3Part (openssl : OpenSsl) (image : FileName) (j l1BlkNum i : Nat) (loop : Lv3Loop) : Option Lv3Loop := do
  let shell ←
    if i ≠ l1BlkNum then loop.shell.dd image (.partOf j i) loop.imgCurr 0 blockSize false
    else loop.shell.dd image (.partOf j i) loop.imgCurr 0 loop.l1BlkHashSz false
  let shell ← shell.dgstBinary openssl (.partOfHashBin j i) (.partOf j i)
  let shell ← shell.dd (.partOfHashBin j i) (.l2Of j) 0 loop.hashCurr hashSize true
  some { loop with shell, imgCurr := loop.imgCurr + blockSize, hashCurr := loop.hashCurr + hashSize }

/-- `l1_blk_num` and `l1_blk_hash_sz` in group `j`; where the size divides, the last group
sets `l1_blk_sz_mod` and leaves `l1_blk_hash_sz` as the group before it had it. -/
def lv3Counts (l2BlkNum l2BlkSzMod j l1BlkHashSz : Nat) : Nat × Nat :=
  if j ≠ l2BlkNum then (blockSize / hashSize, blockSize)
  else if l2BlkSzMod = 0 then (blockSize / hashSize, l1BlkHashSz)
  else if l2BlkSzMod % blockSize ≠ 0 then (l2BlkSzMod / blockSize + 1, l2BlkSzMod % blockSize)
  else (l2BlkSzMod / blockSize, blockSize)

/-- The body of `for j in $(seq 1 $l2_blk_num)`. -/
def lv3Group (openssl : OpenSsl) (image : FileName) (l2BlkNum l2BlkSzMod j : Nat) (loop : Lv3Loop) :
    Option Lv3Loop := do
  let (l1BlkNum, l1BlkHashSz) := lv3Counts l2BlkNum l2BlkSzMod j loop.l1BlkHashSz
  -- only the last group's file is made to end at a multiple of `hash_block_size`
  let l2HashSz := if j = l2BlkNum then hashSetL2Sz l1BlkNum else l1BlkNum * hashSize
  let shell := loop.shell.ddZero (.l2Of j) l2HashSz
  let loop ← forSeq l1BlkNum (lv3Part openssl image j l1BlkNum) { loop with shell, l1BlkHashSz }
  let shell ← loop.shell.dgstBinary openssl (.l2OfHashBin j) (.l2Of j)
  let shell ← shell.dd (.l2OfHashBin j) .l2 0 loop.l2HashCurr hashSize true
  some { loop with shell, hashCurr := 0, l2HashCurr := loop.l2HashCurr + hashSize }

/-- `process_hash_set_lv3 $1 $2`, with `wc -c`, `seq 1`, `$hash_block_size` and `openssl dgst`
for `wc 0c`, `seq q`, `$hash_bock_size` and `openssh dgst`. -/
def processHashSetLv3 (openssl : OpenSsl) (image : FileName) (shell : Shell) : Option Shell := do
  let imgSize := (← shell.files image).length
  let l2BlkNum := imgSize / hashSetL3BlkSz
  let l2BlkSzMod := imgSize % hashSetL3BlkSz
  -- `l2_blk_hash_sz` is still 0 here, so the test of it on line 33 never rounds it up
  let shell := shell.ddZero .l2 0
  let loop ← forSeq l2BlkNum (lv3Group openssl image l2BlkNum l2BlkSzMod) ⟨shell, 0, 0, 0, 0⟩
  loop.shell.dgstBinary openssl .hashBin .l2

/-! ## `hash_image` -/

/-- `hash_image $1 $2` -/
def hashImage (openssl : OpenSsl) (image : FileName) (shell : Shell) : Option Shell := do
  let imgSize := (← shell.files image).length
  if imgSize > hashSetL3BlkSz then processHashSetLv3 openssl image shell
  else processHashSet openssl image shell

end KernelLearning.SafeBoot
