import KernelLearning.SafeBoot.HashSet

/-!
# The files of `process_hash_set`

The parts are the image cut into blocks, `${2}_l2` is the list of their hashes,
and the parts of an earlier run with more blocks stay where they are.
-/

namespace KernelLearning.SafeBoot

open Bytes ShellSemantics

/-- The files that a run on `image` leaves, with the parts it wrote in order. -/
structure Layout (sha256 : List UInt8 → List UInt8) (image : List UInt8) (before after : Files FileName)
    (parts : List (List UInt8)) : Prop where
  whole : parts.flatten = image
  written : ∀ index (inside : index < parts.length), after (.part (index + 1)) = some parts[index]
  noOther : ∀ i, i = 0 ∨ parts.length < i → after (.part i) = before (.part i)
  full : ∀ index (inside : index + 1 < parts.length), parts[index].length = blockSize
  last : ∃ part, parts.getLast? = some part ∧ 1 ≤ part.length ∧ part.length ≤ blockSize
  table : ∃ padding, padding < hashBlockSize ∧ (parts.length * hashSize + padding) % hashBlockSize = 0 ∧
    after .l2 = some ((parts.map sha256).flatten ++ List.replicate padding 0)
  final : if image.length > blockSize then ∃ table, after .l2 = some table ∧ after .hashBin = some (sha256 table)
    else ∃ part, parts = [part] ∧ after .hashBin = some (sha256 part)

/-! ## The blocks as parts -/

theorem getElem_blocksOf {image : List UInt8} {index : Nat} (inside : index < (blocksOf image).length) :
    (blocksOf image)[index] = window image (index * blockSize) blockSize := by
  simp [blocksOf, blocks]

/-- A block that another one follows is full. -/
theorem length_block {image : List UInt8} {index : Nat} (inside : index + 1 < blkNumOf image) :
    (window image (index * blockSize) blockSize).length = blockSize := by
  have reach := blockCount_mul_lt blockSize_pos image.length
  have before : (index + 2) * blockSize ≤ blkNumOf image * blockSize := Nat.mul_le_mul_right _ inside
  rw [← blkNumOf] at reach
  rw [length_window]
  simp only [Nat.add_mul] at before
  omega

/-- The last block takes what is left. -/
theorem length_lastBlock {image : List UInt8} (nonempty : image ≠ []) :
    1 ≤ (window image ((blkNumOf image - 1) * blockSize) blockSize).length ∧
      (window image ((blkNumOf image - 1) * blockSize) blockSize).length ≤ blockSize := by
  have positive := blkNumOf_pos nonempty
  have reach := blockCount_mul_lt blockSize_pos image.length
  have covered := le_blockCount_mul blockSize_pos image.length
  have start : (blkNumOf image - 1) * blockSize + blockSize = blkNumOf image * blockSize := by
    rw [← Nat.succ_mul, Nat.succ_eq_add_one, Nat.sub_add_cancel positive]
  rw [← blkNumOf] at reach covered
  rw [length_window]
  omega

/-- The zeros behind the hashes. -/
theorem padding_hashSetL2Sz (blkNum : Nat) :
    hashSetL2Sz blkNum - blkNum * hashSize < hashBlockSize ∧
      (blkNum * hashSize + (hashSetL2Sz blkNum - blkNum * hashSize)) % hashBlockSize = 0 := by
  simp only [hashSetL2Sz]
  split
  case isTrue rest =>
    simp only [hashBlockSize] at *
    omega
  case isFalse aligned =>
    simp only [hashBlockSize] at *
    omega

/-! ## The parts of another run -/

theorem hashPart_otherPart {openssl : OpenSsl} {shell shell' : Shell} {image : FileName} {i other : Nat}
    {imgCurr hashCurr count : Nat} (performed : shell.hashPart openssl image i imgCurr hashCurr count = some shell')
    (different : other ≠ i) : shell'.files (.part other) = shell.files (.part other) := by
  simp only [Shell.hashPart, Shell.dd, Shell.dgst, Shell.dgstBinary, Files.dd, bind, Option.bind_eq_some_iff,
    Option.map_eq_some_iff] at performed
  obtain ⟨_, ⟨_, ⟨_, _, rfl⟩, rfl⟩, _, ⟨_, _, rfl⟩, _, ⟨_, _, rfl⟩, _, ⟨_, _, rfl⟩, rfl⟩ := performed
  simp [different]

theorem body_otherPart {openssl : OpenSsl} {loop loop' : HashSetLoop} {image : FileName} {blkNum i other : Nat}
    (performed : processHashSetBody openssl image blkNum i loop = some loop') (different : other ≠ i) :
    loop'.shell.files (.part other) = loop.shell.files (.part other) := by
  simp only [processHashSetBody] at performed
  split at performed
  all_goals
    simp only [bind, Option.bind_eq_some_iff, Option.some.injEq] at performed
    obtain ⟨shell, part, rfl⟩ := performed
    exact hashPart_otherPart part different

theorem processHashSet_otherPart {openssl : OpenSsl} {files : Files FileName} {after : Shell} {name : String}
    {image : List UInt8} {other : Nat} (source : files (.other name) = some image)
    (performed : processHashSet openssl (.other name) (.start files) = some after)
    (different : other = 0 ∨ blkNumOf image < other) : after.files (.part other) = files (.part other) := by
  have blkNum : (if image.length % blockSize ≠ 0 then image.length / blockSize + 1
      else image.length / blockSize) = blkNumOf image := by
    simp only [blkNumOf, blockCount, ite_not]
  simp only [processHashSet, Shell.start, source, blkNum, bind, Option.bind_some, Option.bind_eq_some_iff] at performed
  obtain ⟨loop, reached, closed⟩ := performed
  have kept : loop.shell.files (.part other) = files (.part other) := by
    refine forSeq_keeps (fun loop => loop.shell.files (.part other) = files (.part other)) ?_ reached ?_
    · intro index loop loop' inside part before
      rw [body_otherPart part (by omega), before]
    · simp [Shell.ddZero, Files.ddZero]
  rw [← kept]
  -- the final hash has a file of its own
  split at closed
  all_goals
    simp only [Shell.dgst, Shell.dgstBinary, Shell.cp, Files.cp, Option.bind_eq_some_iff,
      Option.map_eq_some_iff] at closed
  · obtain ⟨_, ⟨_, _, rfl⟩, _, _, rfl⟩ := closed
    simp
  · obtain ⟨_, ⟨_, ⟨_, _, rfl⟩, rfl⟩, _, ⟨_, _, rfl⟩, rfl⟩ := closed
    simp

/-! ## The layout -/

/-- Of an image of any length but 0. -/
theorem processHashSet_layout {openssl : OpenSsl} {name : String} {image : List UInt8} {files : Files FileName}
    (digests : ∀ bytes, (openssl.sha256 bytes).length = hashSize) (nonempty : 0 < image.length)
    (source : files (.other name) = some image) :
    ∃ after parts, processHashSet openssl (.other name) (.start files) = some after ∧
      Layout openssl.sha256 image files after.files parts := by
  have nonempty := List.ne_nil_of_length_pos nonempty
  have positive := blkNumOf_pos nonempty
  -- the parts of the layout are the blocks of the image
  obtain ⟨after, performed, done⟩ := processHashSet_done digests nonempty source
  refine ⟨after, blocksOf image, performed, ?_⟩
  constructor
  case whole =>
    rw [blocksOf, flatten_blocks]
    exact List.take_of_length_le (le_blockCount_mul blockSize_pos image.length)
  case written =>
    intro index inside
    rw [length_blocksOf] at inside
    rw [done.parts index inside, getElem_blocksOf]
  case noOther =>
    intro i different
    rw [length_blocksOf] at different
    exact processHashSet_otherPart source performed different
  case full =>
    intro index inside
    rw [length_blocksOf] at inside
    rw [getElem_blocksOf, length_block inside]
  case last =>
    refine ⟨_, ?_, length_lastBlock nonempty⟩
    rw [List.getLast?_eq_getElem?, length_blocksOf, List.getElem?_eq_getElem, getElem_blocksOf]
    rw [length_blocksOf]
    omega
  case table =>
    obtain ⟨short, aligned⟩ := padding_hashSetL2Sz (blkNumOf image)
    rw [length_blocksOf]
    exact ⟨_, short, aligned, done.table⟩
  case final =>
    have final := done.final
    split
    case isTrue long =>
      rw [finalHash, if_pos long] at final
      exact ⟨_, done.table, final⟩
    case isFalse short =>
      rw [finalHash, if_neg short] at final
      exact ⟨image, blocksOf_single nonempty (Nat.not_lt.mp short), final⟩

/-- 32769 zero bytes, with their hashes. -/
theorem processHashSet_layout_zeros :
    ∃ after parts,
      processHashSet ⟨sha256OfZeros, fun _ _ => []⟩ (.other "image")
        (.start (directoryOf (List.replicate 32769 0))) = some after ∧
      Layout sha256OfZeros (List.replicate 32769 0) (directoryOf (List.replicate 32769 0)) after.files parts ∧
      2 ≤ parts.length := by
  have zeros : (List.replicate 32769 (0 : UInt8)).length = 32769 := List.length_replicate
  obtain ⟨after, parts, performed, layout⟩ :=
    @processHashSet_layout ⟨sha256OfZeros, fun _ _ => []⟩ "image" _ (directoryOf (List.replicate 32769 0))
      length_sha256OfZeros (by rw [zeros]; decide) (directoryOf_image _)
  refine ⟨after, parts, performed, layout, ?_⟩
  -- the last part is one block at most, and so it is not all of them
  obtain ⟨part, last, _, short⟩ := layout.last
  have whole := congrArg List.length layout.whole
  rw [zeros] at whole
  match parts with
  | [] => cases last
  | [only] =>
    obtain rfl : only = part := Option.some.inj last
    simp only [List.flatten_cons, List.flatten_nil, List.append_nil] at whole
    rw [whole] at short
    exact absurd short (by decide)
  | _ :: _ :: _ => simp

end KernelLearning.SafeBoot
