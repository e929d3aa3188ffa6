import KernelLearning.SafeBoot.HashSet
import Mathlib.Data.Set.Function

/-!
# Images with the same final hash

The final hash of an image of one block is the hash of the image; that of a
longer one is the hash of the list of its block hashes, padded with zeros.  The
two are told apart by nothing but their bytes.
-/

namespace KernelLearning.SafeBoot

open Bytes ShellSemantics

/-- `image`, of one block, is the padded list of the block hashes of `longer`. -/
def IsHashListOf (sha256 : List UInt8 → List UInt8) (image longer : List UInt8) : Prop :=
  image.length ≤ blockSize ∧ blockSize < longer.length ∧ image = hashList sha256 longer

/-- `longer` is `image`, an odd number of whole blocks and more than one, and a block whose
hash is all zeros, like the padding of the list. -/
def EndsInZeroHash (sha256 : List UInt8 → List UInt8) (image longer : List UInt8) : Prop :=
  blockSize < image.length ∧ image.length % blockSize = 0 ∧ image.length / blockSize % 2 = 1 ∧
    ∃ block, block ≠ [] ∧ block.length ≤ blockSize ∧ sha256 block = List.replicate hashSize 0 ∧
      longer = image ++ block

/-- The two ways for distinct images to have one final hash. -/
def Confused (sha256 : List UInt8 → List UInt8) (image image' : List UInt8) : Prop :=
  IsHashListOf sha256 image image' ∨ IsHashListOf sha256 image' image ∨
    EndsInZeroHash sha256 image image' ∨ EndsInZeroHash sha256 image' image

theorem Confused.symm {sha256 : List UInt8 → List UInt8} {image image' : List UInt8}
    (confused : Confused sha256 image image') : Confused sha256 image' image := by
  obtain list | list | zero | zero := confused
  · exact .inr (.inl list)
  · exact .inl list
  · exact .inr (.inr (.inr zero))
  · exact .inr (.inr (.inl zero))

/-! ## The padded list as records -/

/-- The 32-byte records of `${2}_l2`. -/
def hashRecords (sha256 : List UInt8 → List UInt8) (image : List UInt8) : List (List UInt8) :=
  (blocksOf image).map sha256 ++ List.replicate (blkNumOf image % 2) (List.replicate hashSize 0)

theorem hashList_eq_flatten (sha256 : List UInt8 → List UInt8) (image : List UInt8) :
    hashList sha256 image = (hashRecords sha256 image).flatten := by
  have padding : hashSetL2Sz (blkNumOf image) - blkNumOf image * hashSize = blkNumOf image % 2 * hashSize := by
    simp only [hashSetL2Sz]
    split
    case isTrue rest =>
      simp only [hashSize, hashBlockSize] at *
      omega
    case isFalse even =>
      simp only [hashSize, hashBlockSize] at *
      omega
  rw [hashList, hashRecords, padding, List.flatten_append, List.flatten_replicate_replicate]

theorem blocksOf_injective {image image' : List UInt8} (same : blocksOf image = blocksOf image') :
    image = image' := by
  have count := congrArg List.length same
  rw [length_blocksOf, length_blocksOf] at count
  have covered := le_blockCount_mul blockSize_pos image.length
  have covered' := le_blockCount_mul blockSize_pos image'.length
  rw [blocksOf, blocksOf, ← count] at same
  exact blocks_injective covered (by rw [← blkNumOf, count]; exact covered') same

section Records

variable {sha256 : List UInt8 → List UInt8} (digests : ∀ bytes, (sha256 bytes).length = hashSize)
include digests

theorem hashRecords_injective {image image' : List UInt8}
    (same : hashList sha256 image = hashList sha256 image') :
    hashRecords sha256 image = hashRecords sha256 image' := by
  have sizes : ∀ image, ∀ hash ∈ hashRecords sha256 image, hash.length = hashSize := by
    intro image hash member
    simp only [hashRecords, List.mem_append, List.mem_map, List.mem_replicate] at member
    obtain ⟨block, _, rfl⟩ | ⟨_, rfl⟩ := member
    · exact digests block
    · exact List.length_replicate
  rw [hashList_eq_flatten, hashList_eq_flatten] at same
  exact flatten_injective (by decide) (sizes image) (sizes image') same

omit digests in
/-- Lists of an odd number of hashes and of one more are the same where the padding of the
one is the last hash of the other. -/
theorem endsInZeroHash_of_records {strings : Set (List UInt8)} {image image' : List UInt8}
    (injective : Set.InjOn sha256 strings) (hashed : ∀ block ∈ blocksOf image, block ∈ strings)
    (hashed' : ∀ block ∈ blocksOf image', block ∈ strings) (long : blockSize < image.length)
    (odd : blkNumOf image % 2 = 1) (more : blkNumOf image' = blkNumOf image + 1)
    (same : hashRecords sha256 image = hashRecords sha256 image') : EndsInZeroHash sha256 image image' := by
  have even : blkNumOf image' % 2 = 0 := by omega
  have split : blocksOf image' = blocks blockSize (blkNumOf image) image' ++
      [window image' (blkNumOf image * blockSize) blockSize] := by
    rw [blocksOf, more, blocks_succ]
  rw [hashRecords, hashRecords, odd, even, split, List.map_append] at same
  simp only [List.replicate_one, List.replicate_zero, List.append_nil, List.map_cons, List.map_nil] at same
  obtain ⟨first, last⟩ := List.append_inj same (by simp)
  -- the first blocks agree, so `image` is a prefix of `image'`
  have agree := map_injective_on injective hashed (fun block member => hashed' block
    (split ▸ List.mem_append_left _ member)) first
  have flat := congrArg List.flatten agree
  have covered := le_blockCount_mul blockSize_pos image.length
  have covered' := le_blockCount_mul blockSize_pos image'.length
  have reach := blockCount_mul_lt blockSize_pos image'.length
  rw [← blkNumOf] at covered covered' reach
  rw [more, Nat.succ_mul] at covered' reach
  rw [blocksOf, flatten_blocks, flatten_blocks, List.take_of_length_le covered] at flat
  have whole : image.length = blkNumOf image * blockSize := by
    have length := congrArg List.length flat
    rw [List.length_take] at length
    omega
  have count : image.length / blockSize = blkNumOf image := by
    rw [whole, Nat.mul_div_cancel _ blockSize_pos]
  have zero : sha256 (window image' (blkNumOf image * blockSize) blockSize) = List.replicate hashSize 0 := by
    simpa using last.symm
  have rest : window image' (blkNumOf image * blockSize) blockSize = image'.drop (blkNumOf image * blockSize) := by
    rw [window, List.take_of_length_le]
    rw [List.length_drop]
    omega
  rw [rest] at zero
  refine ⟨long, ?_, by rw [count]; exact odd, image'.drop (blkNumOf image * blockSize), ?_, ?_, zero, ?_⟩
  · rw [whole, Nat.mul_mod_left]
  · rw [ne_eq, List.drop_eq_nil_iff]
    omega
  · rw [List.length_drop]
    omega
  · exact (List.take_append_drop (blkNumOf image * blockSize) image').symm.trans (by rw [← flat])

omit digests in
/-- The zeros that pad the shorter list are the last hash of the longer one. -/
theorem EndsInZeroHash.hashList_eq {image longer : List UInt8} (zero : EndsInZeroHash sha256 image longer) :
    hashList sha256 image = hashList sha256 longer := by
  obtain ⟨_, whole, odd, block, nonempty, short, hash, rfl⟩ := zero
  have positive := List.length_pos_iff.mpr nonempty
  have count : blkNumOf image = image.length / blockSize := by simp only [blkNumOf, blockCount, if_pos whole]
  have length : image.length = blkNumOf image * blockSize := by
    rw [count]
    have := Nat.div_add_mod' image.length blockSize
    omega
  -- the longer image has one block more, the shorter one a slot of zeros in its place
  have more : blkNumOf (image ++ block) = blkNumOf image + 1 := by
    have covered := le_blockCount_mul blockSize_pos (image ++ block).length
    have reach := blockCount_mul_lt blockSize_pos (image ++ block).length
    rw [← blkNumOf, List.length_append] at covered reach
    simp only [blockSize] at *
    omega
  have first : blocks blockSize (blkNumOf image) (image ++ block) = blocksOf image := by
    rw [blocksOf, blocks, blocks, List.map_inj_left]
    intro index member
    have below : (index + 1) * blockSize ≤ blkNumOf image * blockSize :=
      Nat.mul_le_mul_right _ (List.mem_range.mp member)
    rw [Nat.succ_mul] at below
    rw [window, window, List.drop_append_of_le_length (by omega), List.take_append_of_le_length]
    rw [List.length_drop]
    omega
  have last : window (image ++ block) (blkNumOf image * blockSize) blockSize = block := by
    rw [window, ← length, List.drop_left, List.take_of_length_le short]
  have even : (blkNumOf image + 1) % 2 = 0 := by omega
  rw [hashList_eq_flatten, hashList_eq_flatten, hashRecords, hashRecords, blocksOf.eq_def (image ++ block), more,
    blocks_succ, first, last, even, count, odd]
  simp [hash]

end Records

/-! ## Equal final hashes -/

section FinalHash

variable {sha256 : List UInt8 → List UInt8} {image image' : List UInt8}

/-- Images of at most one block are hashed as they are. -/
theorem not_confused_of_short (short : image.length ≤ blockSize) (short' : image'.length ≤ blockSize) :
    ¬ Confused sha256 image image' := by
  intro confused
  obtain ⟨_, long, _⟩ | ⟨_, long, _⟩ | ⟨long, _⟩ | ⟨long, _⟩ := confused <;> omega

theorem confused_iff_of_short_long (short : image.length ≤ blockSize) (long : blockSize < image'.length) :
    Confused sha256 image image' ↔ image = hashList sha256 image' := by
  constructor
  · intro confused
    obtain ⟨_, _, list⟩ | ⟨short', _, _⟩ | ⟨long', _⟩ | ⟨_, _, _, block, _, _, _, append⟩ := confused
    · exact list
    · omega
    · omega
    · have length := congrArg List.length append
      rw [List.length_append] at length
      omega
  · intro list
    exact .inl ⟨short, long, list⟩

/-- Images of more than one block have the same list exactly where one of them ends in a
block whose hash is the padding of the other's list. -/
theorem hashList_eq_iff (digests : ∀ bytes, (sha256 bytes).length = hashSize) {strings : Set (List UInt8)}
    (injective : Set.InjOn sha256 strings) (hashed : ∀ block ∈ blocksOf image, block ∈ strings)
    (hashed' : ∀ block ∈ blocksOf image', block ∈ strings) (distinct : image ≠ image')
    (long : blockSize < image.length) (long' : blockSize < image'.length) :
    hashList sha256 image = hashList sha256 image' ↔ Confused sha256 image image' := by
  constructor
  · intro same
    have records := hashRecords_injective digests same
    have length := congrArg List.length records
    simp only [hashRecords, List.length_append, List.length_map, length_blocksOf, List.length_replicate] at length
    obtain equal | more | fewer : blkNumOf image = blkNumOf image' ∨
        (blkNumOf image % 2 = 1 ∧ blkNumOf image' = blkNumOf image + 1) ∨
        (blkNumOf image' % 2 = 1 ∧ blkNumOf image = blkNumOf image' + 1) := by omega
    · -- lists of equally many hashes are padded alike
      rw [hashRecords, hashRecords] at records
      obtain ⟨hashes, _⟩ := List.append_inj records (by simpa using equal)
      exact absurd (blocksOf_injective (map_injective_on injective hashed hashed' hashes)) distinct
    · exact .inr (.inr (.inl (endsInZeroHash_of_records injective hashed hashed' long more.1 more.2
        records)))
    · exact .inr (.inr (.inr (endsInZeroHash_of_records injective hashed' hashed long' fewer.1 fewer.2
        records.symm)))
  · intro confused
    obtain ⟨short, _, _⟩ | ⟨short, _, _⟩ | zero | zero := confused
    · omega
    · omega
    · exact zero.hashList_eq
    · exact zero.hashList_eq.symm

/-- Two final hashes, where SHA-256 tells apart what the two runs hashed. -/
theorem finalHash_eq_iff (digests : ∀ bytes, (sha256 bytes).length = hashSize)
    (nonempty : image ≠ []) (nonempty' : image' ≠ []) (distinct : image ≠ image')
    (injective : Set.InjOn sha256
      {bytes | bytes ∈ hashedStrings sha256 image ∨ bytes ∈ hashedStrings sha256 image'}) :
    finalHash sha256 image = finalHash sha256 image' ↔ Confused sha256 image image' := by
  have block : ∀ image, ∀ block ∈ blocksOf image, block ∈ hashedStrings sha256 image := by
    intro image block member
    exact List.mem_append_left _ (List.mem_flatMap.mpr ⟨block, member, List.mem_cons_self⟩)
  have single : ∀ image, image ≠ [] → image.length ≤ blockSize → image ∈ hashedStrings sha256 image := by
    intro image nonempty short
    exact block image image (by simp [blocksOf_single nonempty short])
  have list : ∀ image, blockSize < image.length → hashList sha256 image ∈ hashedStrings sha256 image := by
    intro image long
    exact List.mem_append_right _ (by simp [long])
  -- an image of one block is hashed itself, a longer one by its list of hashes
  by_cases long : blockSize < image.length
  · by_cases long' : blockSize < image'.length
    · rw [finalHash, finalHash, if_pos long, if_pos long',
        injective.eq_iff (.inl (list image long)) (.inr (list image' long'))]
      exact hashList_eq_iff digests injective (fun b member => .inl (block image b member))
        (fun b member => .inr (block image' b member)) distinct long long'
    · have short' := Nat.not_lt.mp long'
      rw [finalHash, finalHash, if_pos long, if_neg long',
        injective.eq_iff (.inl (list image long)) (.inr (single image' nonempty' short'))]
      constructor
      · exact fun same => ((confused_iff_of_short_long short' long).mpr same.symm).symm
      · exact fun confused => ((confused_iff_of_short_long short' long).mp confused.symm).symm
  · have short := Nat.not_lt.mp long
    by_cases long' : blockSize < image'.length
    · rw [finalHash, finalHash, if_neg long, if_pos long',
        injective.eq_iff (.inl (single image nonempty short)) (.inr (list image' long'))]
      exact (confused_iff_of_short_long short long').symm
    · have short' := Nat.not_lt.mp long'
      rw [finalHash, finalHash, if_neg long, if_neg long',
        injective.eq_iff (.inl (single image nonempty short)) (.inr (single image' nonempty' short'))]
      exact ⟨fun same => absurd same distinct, fun confused => absurd confused (not_confused_of_short short short')⟩

end FinalHash

/-! ## `hash_image` -/

theorem hashImage_done {openssl : OpenSsl} {name : String} {image : List UInt8} {files : Files FileName}
    (digests : ∀ bytes, (openssl.sha256 bytes).length = hashSize) (nonempty : image ≠ [])
    (short : image.length ≤ hashSetL3BlkSz) (source : files (.other name) = some image) :
    ∃ after, hashImage openssl (.other name) (.start files) = some after ∧ HashSetDone openssl image after := by
  obtain ⟨after, performed, done⟩ := processHashSet_done digests nonempty source
  refine ⟨after, ?_, done⟩
  simp [hashImage, Shell.start, source, Nat.not_lt.mpr short]
  exact performed

/-- Runs on two images succeed, and leave one final hash exactly where the images are
confused. -/
theorem hashImage_confused_iff (openssl : OpenSsl) {name name' : String} {files files' : Files FileName}
    {image image' : List UInt8} (digests : ∀ bytes, (openssl.sha256 bytes).length = hashSize)
    (nonempty : image ≠ []) (nonempty' : image' ≠ []) (distinct : image ≠ image')
    (short : image.length ≤ hashSetL3BlkSz) (short' : image'.length ≤ hashSetL3BlkSz)
    (source : files (.other name) = some image) (source' : files' (.other name') = some image') :
    ∃ after after' hash hash',
      hashImage openssl (.other name) (.start files) = some after ∧
      hashImage openssl (.other name') (.start files') = some after' ∧
      after.files .hashBin = some hash ∧ after'.files .hashBin = some hash' ∧
      (Set.InjOn openssl.sha256
          {bytes | bytes ∈ after.hashed.map Prod.snd ∨ bytes ∈ after'.hashed.map Prod.snd} →
        (hash = hash' ↔ Confused openssl.sha256 image image')) := by
  obtain ⟨after, performed, done⟩ := hashImage_done digests nonempty short source
  obtain ⟨after', performed', done'⟩ := hashImage_done digests nonempty' short' source'
  refine ⟨after, after', _, _, performed, performed', done.final, done'.final, ?_⟩
  rw [done.hashed, done'.hashed]
  exact finalHash_eq_iff digests nonempty nonempty' distinct

/-! ## Two images that are confused -/

/-- The list of the two hashes of 32769 zero bytes. -/
def zeroHashes : List UInt8 := hashOfZeroBlock ++ hashOfZeroByte

theorem length_zeroHashes : zeroHashes.length = 64 := rfl

theorem zeroHashes_nonempty : zeroHashes ≠ [] := by decide

theorem zeroHashes_short : zeroHashes.length ≤ hashSetL3BlkSz := by decide

theorem zeros_nonempty : List.replicate 32769 (0 : UInt8) ≠ [] := by simp [-List.reduceReplicate]

theorem zeros_short : (List.replicate 32769 (0 : UInt8)).length ≤ hashSetL3BlkSz := by
  rw [List.length_replicate]
  decide

theorem zeroHashes_ne_zeros : zeroHashes ≠ List.replicate 32769 0 := by
  intro same
  have length := congrArg List.length same
  rw [length_zeroHashes, List.length_replicate] at length
  omega

theorem hashList_zeros : hashList sha256OfZeros (List.replicate 32769 0) = zeroHashes := by
  have odd : blkNumOf (List.replicate 32769 (0 : UInt8)) % 2 = 0 := by
    rw [blkNumOf, List.length_replicate]
    rfl
  rw [hashList_eq_flatten, hashRecords, odd, blocksOf_zeros]
  simp [-List.reduceReplicate, sha256OfZeros, zeroHashes]

theorem confused_zeros : Confused sha256OfZeros zeroHashes (List.replicate 32769 0) := by
  refine .inl ⟨by decide, ?_, hashList_zeros.symm⟩
  rw [List.length_replicate]
  decide

/-- The strings that are hashed have three lengths, and three hashes. -/
theorem injOn_sha256OfZeros :
    Set.InjOn sha256OfZeros
      {bytes | bytes ∈ hashedStrings sha256OfZeros zeroHashes ∨
        bytes ∈ hashedStrings sha256OfZeros (List.replicate 32769 0)} := by
  have strings : ∀ bytes, bytes ∈ hashedStrings sha256OfZeros zeroHashes ∨
      bytes ∈ hashedStrings sha256OfZeros (List.replicate 32769 0) →
      bytes = zeroHashes ∨ bytes = List.replicate 32768 0 ∨ bytes = [0] := by
    intro bytes member
    have single := blocksOf_single zeroHashes_nonempty (by decide)
    simp only [hashedStrings, single, blocksOf_zeros, hashList_zeros, List.length_replicate, length_zeroHashes,
      blockSize] at member
    simp [-List.reduceReplicate] at member
    grind
  intro bytes member bytes' member' same
  obtain rfl | rfl | rfl := strings bytes member <;> obtain rfl | rfl | rfl := strings bytes' member' <;>
    first
      | rfl
      | (simp [-List.reduceReplicate, sha256OfZeros, length_zeroHashes] at same; exact absurd same (by decide))

/-- An image of 32769 zero bytes has the final hash of the list of its two hashes. -/
theorem hashImage_confused_iff_zeros :
    ∃ after after' hash,
      hashImage ⟨sha256OfZeros, fun _ _ => []⟩ (.other "image") (.start (directoryOf zeroHashes)) = some after ∧
      hashImage ⟨sha256OfZeros, fun _ _ => []⟩ (.other "image") (.start (directoryOf (List.replicate 32769 0))) =
        some after' ∧
      after.files .hashBin = some hash ∧ after'.files .hashBin = some hash := by
  obtain ⟨after, after', hash, hash', performed, performed', final, final', same⟩ :=
    hashImage_confused_iff ⟨sha256OfZeros, fun _ _ => []⟩ length_sha256OfZeros zeroHashes_nonempty zeros_nonempty
      zeroHashes_ne_zeros zeroHashes_short zeros_short (directoryOf_image _) (directoryOf_image _)
  obtain ⟨_, again, done⟩ := @hashImage_done ⟨sha256OfZeros, fun _ _ => []⟩ "image" _ (directoryOf zeroHashes)
    length_sha256OfZeros zeroHashes_nonempty zeroHashes_short (directoryOf_image _)
  obtain ⟨_, again', done'⟩ := @hashImage_done ⟨sha256OfZeros, fun _ _ => []⟩ "image" _
    (directoryOf (List.replicate 32769 0)) length_sha256OfZeros zeros_nonempty zeros_short (directoryOf_image _)
  obtain rfl := Option.some.inj (performed.symm.trans again)
  obtain rfl := Option.some.inj (performed'.symm.trans again')
  rw [done.hashed, done'.hashed] at same
  obtain rfl := (same injOn_sha256OfZeros).mpr confused_zeros
  exact ⟨after, after', hash, performed, performed', final, final'⟩

/-- An image of 32769 zero bytes, and the list of its two hashes as an image. -/
theorem hashImage_not_collisionFree :
    ∃ (openssl : OpenSsl) (image image' : List UInt8) (after after' : Shell),
      (∀ bytes, (openssl.sha256 bytes).length = hashSize) ∧
      image ≠ [] ∧ image' ≠ [] ∧ image ≠ image' ∧
      image.length ≤ hashSetL3BlkSz ∧ image'.length ≤ hashSetL3BlkSz ∧
      hashImage openssl (.other "image") (.start (directoryOf image)) = some after ∧
      hashImage openssl (.other "image") (.start (directoryOf image')) = some after' ∧
      Set.InjOn openssl.sha256
        {bytes | bytes ∈ after.hashed.map Prod.snd ∨ bytes ∈ after'.hashed.map Prod.snd} ∧
      after.files .hashBin = after'.files .hashBin := by
  obtain ⟨after, performed, done⟩ := @hashImage_done ⟨sha256OfZeros, fun _ _ => []⟩ "image" _ (directoryOf zeroHashes)
    length_sha256OfZeros zeroHashes_nonempty zeroHashes_short (directoryOf_image _)
  obtain ⟨after', performed', done'⟩ := @hashImage_done ⟨sha256OfZeros, fun _ _ => []⟩ "image" _
    (directoryOf (List.replicate 32769 0)) length_sha256OfZeros zeros_nonempty zeros_short (directoryOf_image _)
  refine ⟨⟨sha256OfZeros, fun _ _ => []⟩, _, _, after, after', length_sha256OfZeros, zeroHashes_nonempty,
    zeros_nonempty, zeroHashes_ne_zeros, zeroHashes_short, zeros_short, performed, performed', ?_, ?_⟩
  · rw [done.hashed, done'.hashed]
    exact injOn_sha256OfZeros
  · rw [done.final, done'.final]
    simp only [finalHash, List.length_replicate, length_zeroHashes, blockSize, hashList_zeros]
    simp [-List.reduceReplicate]

end KernelLearning.SafeBoot
