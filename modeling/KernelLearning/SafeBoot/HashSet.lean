import KernelLearning.Bytes.Blocks
import KernelLearning.SafeBoot.UtilAuth

/-!
# What `process_hash_set` leaves behind

The parts, the list of their hashes in `${2}_l2`, and the final hash, for every
image that is not empty.
-/

namespace KernelLearning.SafeBoot

open Bytes ShellSemantics

/-- How many blocks an image has, the last one possibly short. -/
def blkNumOf (image : List UInt8) : Nat := blockCount blockSize image.length

/-- The blocks of an image. -/
def blocksOf (image : List UInt8) : List (List UInt8) := blocks blockSize (blkNumOf image) image

@[simp] theorem length_blocksOf (image : List UInt8) : (blocksOf image).length = blkNumOf image := by
  simp [blocksOf]

/-- `${2}_l2`: the hashes of the blocks, up to a multiple of `hash_block_size` with zeros. -/
def hashList (sha256 : List UInt8 → List UInt8) (image : List UInt8) : List UInt8 :=
  ((blocksOf image).map sha256).flatten ++
    List.replicate (hashSetL2Sz (blkNumOf image) - blkNumOf image * hashSize) 0

/-- `${2}_hash.bin` -/
def finalHash (sha256 : List UInt8 → List UInt8) (image : List UInt8) : List UInt8 :=
  if image.length > blockSize then sha256 (hashList sha256 image) else sha256 image

/-- What the run hashed, in order. -/
def hashedStrings (sha256 : List UInt8 → List UInt8) (image : List UInt8) : List (List UInt8) :=
  (blocksOf image).flatMap (fun block => [block, block]) ++
    if image.length > blockSize then [hashList sha256 image, hashList sha256 image] else []

/-! ## Numbers of blocks -/

theorem blkNumOf_pos {image : List UInt8} (nonempty : image ≠ []) : 0 < blkNumOf image := by
  have covered := le_blockCount_mul blockSize_pos image.length
  have length := List.length_pos_iff.mpr nonempty
  rw [blkNumOf]
  by_contra none
  rw [Nat.eq_zero_of_not_pos none] at covered
  omega

/-- The last block ends the image. -/
theorem window_last {image : List UInt8} {index : Nat} (last : index + 1 = blkNumOf image) :
    window image (index * blockSize)
      (if image.length % blockSize = 0 then blockSize else image.length % blockSize) =
    window image (index * blockSize) blockSize := by
  have split := Nat.div_add_mod' image.length blockSize
  simp only [blkNumOf, blockCount] at last
  split at last
  case isTrue exact => rw [if_pos exact]
  case isFalse rest =>
    have place : index = image.length / blockSize := by omega
    have remaining : (image.drop (index * blockSize)).length = image.length % blockSize := by
      rw [List.length_drop, place]
      omega
    have bound := Nat.mod_lt image.length blockSize_pos
    rw [if_neg rest, window, window, List.take_of_length_le (by omega), List.take_of_length_le (by omega)]

/-! ## One part -/

section Part

variable {openssl : OpenSsl} {shell : Shell} {name : String} {bytes table : List UInt8}

/-- The four commands on one part. -/
theorem hashPart_of_files (source : shell.files (.other name) = some bytes) (l2 : shell.files .l2 = some table)
    (i imgCurr hashCurr count : Nat) :
    shell.hashPart openssl (.other name) i imgCurr hashCurr count =
      some
        { files := (((shell.files.write (.part i) (window bytes imgCurr count)).write (.partHashText i)
            (openssl.report (.part i) (window bytes imgCurr count))).write (.partHashBin i)
            (openssl.sha256 (window bytes imgCurr count))).write .l2
            (ddOutput table hashCurr (window (openssl.sha256 (window bytes imgCurr count)) 0 hashSize) true)
          hashed := shell.hashed ++
            [(.part i, window bytes imgCurr count), (.part i, window bytes imgCurr count)] } := by
  simp [Shell.hashPart, Shell.dd, Shell.dgst, Shell.dgstBinary, Files.dd, source, l2]

end Part

/-! ## The loop -/

/-- After `done` iterations over the image. -/
structure HashSetInvariant (openssl : OpenSsl) (name : String) (image : List UInt8) (done : Nat)
    (loop : HashSetLoop) : Prop where
  source : loop.shell.files (.other name) = some image
  parts : ∀ index, index < done →
    loop.shell.files (.part (index + 1)) = some (window image (index * blockSize) blockSize)
  hashes : ∀ index, index < done →
    loop.shell.files (.partHashBin (index + 1)) =
      some (openssl.sha256 (window image (index * blockSize) blockSize))
  texts : ∀ index, index < done → ∃ text, loop.shell.files (.partHashText (index + 1)) = some text
  table : loop.shell.files .l2 = some
    (((blocks blockSize done image).map openssl.sha256).flatten ++
      List.replicate (hashSetL2Sz (blkNumOf image) - done * hashSize) 0)
  hashed : loop.shell.hashed.map Prod.snd = (blocks blockSize done image).flatMap fun block => [block, block]
  cursors : done < blkNumOf image →
    loop.imgCurr = done * blockSize ∧ loop.hashCurr = done * hashSize ∧ loop.blkMod = image.length % blockSize

section Loop

variable {openssl : OpenSsl} {name : String} {image : List UInt8}
variable (digests : ∀ bytes, (openssl.sha256 bytes).length = hashSize)
include digests

/-- The hashes of the first blocks fill their part of the list. -/
theorem length_hashes (blocks : List (List UInt8)) :
    ((blocks.map openssl.sha256).flatten).length = blocks.length * hashSize := by
  have sizes : ∀ hash ∈ blocks.map openssl.sha256, hash.length = hashSize := by
    intro hash member
    obtain ⟨block, _, rfl⟩ := List.mem_map.mp member
    exact digests block
  rw [length_flatten_of_size sizes, List.length_map]

/-- The part the loop works on, whichever `count` it takes it with. -/
theorem hashPart_invariant {done count : Nat} {loop : HashSetLoop} (inside : done < blkNumOf image)
    (invariant : HashSetInvariant openssl name image done loop)
    (taken : window image (done * blockSize) count = window image (done * blockSize) blockSize) :
    ∃ shell, loop.shell.hashPart openssl (.other name) (done + 1) loop.imgCurr loop.hashCurr count = some shell ∧
      ∀ imgCurr hashCurr blkMod, (done + 1 < blkNumOf image →
        imgCurr = (done + 1) * blockSize ∧ hashCurr = (done + 1) * hashSize ∧
          blkMod = image.length % blockSize) →
      HashSetInvariant openssl name image (done + 1) ⟨shell, imgCurr, hashCurr, blkMod⟩ := by
  obtain ⟨atImage, atHash, _⟩ := invariant.cursors inside
  refine ⟨_, hashPart_of_files invariant.source invariant.table _ _ _ _, ?_⟩
  intro imgCurr hashCurr blkMod cursors
  -- the hash goes to the first of the zeros that are left
  have whole : window (openssl.sha256 (window image (done * blockSize) blockSize)) 0 hashSize =
      openssl.sha256 (window image (done * blockSize) blockSize) := by
    rw [window_zero, List.take_of_length_le (Nat.le_of_eq (digests _))]
  have room : (done + 1) * hashSize ≤ hashSetL2Sz (blkNumOf image) :=
    Nat.le_trans (Nat.mul_le_mul_right _ inside) (le_hashSetL2Sz _)
  rw [Nat.succ_mul] at room
  have place : done * hashSize = (((blocks blockSize done image).map openssl.sha256).flatten).length := by
    rw [length_hashes digests, length_blocks]
  have fits : (openssl.sha256 (window image (done * blockSize) blockSize)).length ≤
      hashSetL2Sz (blkNumOf image) - done * hashSize := by
    rw [digests]
    omega
  have filled := ddOutput_fill _ _ place fits
  rw [atImage, atHash, taken, whole, filled]
  constructor
  case source => simpa using invariant.source
  case parts =>
    intro index bound
    by_cases last : index = done
    · simp [last]
    · simpa [last] using invariant.parts index (by omega)
  case hashes =>
    intro index bound
    by_cases last : index = done
    · simp [last]
    · simpa [last] using invariant.hashes index (by omega)
  case texts =>
    intro index bound
    by_cases last : index = done
    · simp [last]
    · simpa [last] using invariant.texts index (by omega)
  case table => simp [blocks_succ, digests, Nat.succ_mul, Nat.sub_sub]
  case hashed => simp [blocks_succ, invariant.hashed]
  case cursors => exact cursors

theorem processHashSetBody_invariant {done : Nat} {loop : HashSetLoop} (inside : done < blkNumOf image)
    (invariant : HashSetInvariant openssl name image done loop) :
    ∃ loop', processHashSetBody openssl (.other name) (blkNumOf image) (done + 1) loop = some loop' ∧
      HashSetInvariant openssl name image (done + 1) loop' := by
  obtain ⟨atImage, atHash, atMod⟩ := invariant.cursors inside
  simp only [processHashSetBody]
  split
  case isTrue before =>
    obtain ⟨shell, performed, kept⟩ := hashPart_invariant digests inside invariant rfl
    refine ⟨_, by rw [performed]; rfl, kept _ _ _ fun _ => ?_⟩
    rw [atImage, atHash, Nat.succ_mul, Nat.succ_mul]
    exact ⟨rfl, rfl, atMod⟩
  case isFalse last =>
    have final : done + 1 = blkNumOf image := not_not.mp last
    have taken := window_last final
    rw [← atMod] at taken
    obtain ⟨shell, performed, kept⟩ := hashPart_invariant digests inside invariant taken
    exact ⟨_, by rw [performed]; rfl, kept _ _ _ fun more => absurd final (Nat.ne_of_lt more)⟩

end Loop

/-! ## The whole run -/

/-- What a run of `process_hash_set` on `image` leaves. -/
structure HashSetDone (openssl : OpenSsl) (image : List UInt8) (after : Shell) : Prop where
  parts : ∀ index, index < blkNumOf image →
    after.files (.part (index + 1)) = some (window image (index * blockSize) blockSize)
  table : after.files .l2 = some (hashList openssl.sha256 image)
  final : after.files .hashBin = some (finalHash openssl.sha256 image)
  hashed : after.hashed.map Prod.snd = hashedStrings openssl.sha256 image

/-- An image of at most one block is its own block. -/
theorem blocksOf_single {image : List UInt8} (nonempty : image ≠ []) (short : image.length ≤ blockSize) :
    blocksOf image = [image] := by
  have positive := blkNumOf_pos nonempty
  have bound := blockCount_mul_lt blockSize_pos image.length
  have single : blkNumOf image = 1 := by
    simp only [blkNumOf, blockSize] at *
    omega
  simp [blocksOf, single, blocks, window, List.take_of_length_le short]

theorem processHashSet_done {openssl : OpenSsl} {name : String} {image : List UInt8} {files : Files FileName}
    (digests : ∀ bytes, (openssl.sha256 bytes).length = hashSize) (nonempty : image ≠ [])
    (source : files (.other name) = some image) :
    ∃ after, processHashSet openssl (.other name) (.start files) = some after ∧ HashSetDone openssl image after := by
  have blkNum : (if image.length % blockSize ≠ 0 then image.length / blockSize + 1
      else image.length / blockSize) = blkNumOf image := by
    simp only [blkNumOf, blockCount, ite_not]
  have initially : HashSetInvariant openssl name image 0
      ⟨(Shell.start files).ddZero .l2 (hashSetL2Sz (blkNumOf image)), 0, 0, image.length % blockSize⟩ := by
    constructor <;> simp [Shell.start, Shell.ddZero, Files.ddZero, source, blocks]
  obtain ⟨loop, reached, invariant⟩ := forSeq_invariant (blkNumOf image)
    (processHashSetBody openssl (.other name) (blkNumOf image))
    (HashSetInvariant openssl name image) initially
    (fun _ _ inside invariant => processHashSetBody_invariant digests inside invariant)
  have table : loop.shell.files .l2 = some (hashList openssl.sha256 image) := invariant.table
  simp only [processHashSet, Shell.start, source, blkNum, bind, Option.bind_some]
  simp only [Shell.start] at reached
  rw [reached]
  simp only [Option.bind_some]
  split
  -- several blocks: the hash of the list
  case isTrue long =>
    refine ⟨_, by simp [Shell.dgst, Shell.dgstBinary, table]; rfl, ?_⟩
    constructor
    case parts => intro index bound; simpa using invariant.parts index bound
    case table => simpa using table
    case final => simp [finalHash, long]
    case hashed => simp [invariant.hashed, hashedStrings, long, blocksOf]
  case isFalse short =>
    -- one block: its hash is copied, and the block is the image
    have single := blocksOf_single nonempty (Nat.not_lt.mp short)
    have positive := blkNumOf_pos nonempty
    have hash := invariant.hashes 0 positive
    obtain ⟨text, textThere⟩ := invariant.texts 0 positive
    have first : window image (0 * blockSize) blockSize = image := by
      simp [window, List.take_of_length_le (Nat.not_lt.mp short)]
    rw [first] at hash
    refine ⟨_, by simp [Shell.cp, Files.cp, hash, textThere]; rfl, ?_⟩
    constructor
    case parts => intro index bound; simpa using invariant.parts index bound
    case table => simpa using table
    case final => simp [finalHash, short]
    case hashed => simp [invariant.hashed, hashedStrings, short, blocksOf]

/-! ## An image of zeros -/

/-- SHA-256 of 32768 zero bytes. -/
def hashOfZeroBlock : List UInt8 :=
  [0xc3, 0x50, 0x20, 0x47, 0x3a, 0xed, 0x1b, 0x46, 0x42, 0xcd, 0x72, 0x6c, 0xad, 0x72, 0x7b, 0x63,
   0xff, 0xf2, 0x82, 0x4a, 0xd6, 0x8c, 0xed, 0xd7, 0xff, 0xb7, 0x3c, 0x7c, 0xbd, 0x89, 0x04, 0x79]

/-- SHA-256 of one zero byte. -/
def hashOfZeroByte : List UInt8 :=
  [0x6e, 0x34, 0x0b, 0x9c, 0xff, 0xb3, 0x7a, 0x98, 0x9c, 0xa5, 0x44, 0xe6, 0xbb, 0x78, 0x0a, 0x2c,
   0x78, 0x90, 0x1d, 0x3f, 0xb3, 0x37, 0x38, 0x76, 0x85, 0x11, 0xa3, 0x06, 0x17, 0xaf, 0xa0, 0x1d]

/-- SHA-256 of the two hashes above, one after the other. -/
def hashOfZeroHashes : List UInt8 :=
  [0x3d, 0x21, 0x61, 0xf6, 0x59, 0xf3, 0xde, 0x0c, 0xf4, 0x9f, 0x67, 0xeb, 0x6d, 0x3f, 0x64, 0x29,
   0xbb, 0xba, 0x99, 0xd7, 0xcc, 0x81, 0x85, 0x4e, 0x12, 0xdd, 0x94, 0x51, 0x2b, 0x99, 0x55, 0xbf]

/-- SHA-256 on what is hashed of an image of 32769 zero bytes. -/
def sha256OfZeros (bytes : List UInt8) : List UInt8 :=
  if bytes.length = 1 then hashOfZeroByte
  else if bytes.length = 64 then hashOfZeroHashes
  else hashOfZeroBlock

theorem length_sha256OfZeros (bytes : List UInt8) : (sha256OfZeros bytes).length = hashSize := by
  simp only [sha256OfZeros]
  split
  · rfl
  · split <;> rfl

theorem blocksOf_zeros :
    blocksOf (List.replicate 32769 0) = [List.replicate 32768 0, List.replicate 1 0] := by
  have count : blkNumOf (List.replicate 32769 (0 : UInt8)) = 2 := by
    rw [blkNumOf, List.length_replicate]
    rfl
  simp [-List.reduceReplicate, blocksOf, count, blocks, List.range_succ, window, List.drop_replicate,
    List.take_replicate, blockSize]

end KernelLearning.SafeBoot
