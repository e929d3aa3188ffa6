import KernelLearning.Bytes.Blocks
import KernelLearning.SafeBoot.UtilAuth

/-!
# What `process_hash_set_lv3` authenticates

The groups of parts are followed as one sequence: part `p` is part `p % 1024 + 1`
of group `p / 1024 + 1`.  The number of groups is the size of the image divided
by 32 MiB, rounded down, so that an image of another size loses its end.
-/

namespace KernelLearning.SafeBoot

open Bytes ShellSemantics

/-! ## The property -/

/-- A part that was hashed: its group, its number in it, and its bytes. -/
def leaf? : FileName × List UInt8 → Option ((Nat × Nat) × List UInt8)
  | (.partOf j i, bytes) => some ((j, i), bytes)
  | _ => none

/-- The parts that were hashed, in the order in which they were. -/
def leaves (shell : Shell) : List ((Nat × Nat) × List UInt8) := shell.hashed.filterMap leaf?

/-- The parts are the image and are hashed into the tables of their groups. -/
structure Authenticates (openssl : OpenSsl) (image : List UInt8) (after : Shell) : Prop where
  ordered : (leaves after).Pairwise fun leaf next =>
    leaf.1.1 < next.1.1 ∨ leaf.1.1 = next.1.1 ∧ leaf.1.2 < next.1.2
  parts : ∀ leaf ∈ leaves after, after.files (.partOf leaf.1.1 leaf.1.2) = some leaf.2
  whole : ((leaves after).map Prod.snd).flatten = image
  full : ∀ leaf ∈ (leaves after).dropLast, leaf.2.length = blockSize
  slots : ∀ leaf ∈ leaves after, 1 ≤ leaf.1.2 ∧ ∃ table, after.files (.l2Of leaf.1.1) = some table ∧
    window table ((leaf.1.2 - 1) * hashSize) hashSize = openssl.sha256 leaf.2

/-! ## The parts as one sequence -/

/-- How many hashes fill a table, and so how many parts make a group. -/
def groupSize : Nat := blockSize / hashSize

/-- Part `p` of `total`, the last of which has `last` bytes. -/
def leafAt (image : List UInt8) (total last p : Nat) : (Nat × Nat) × List UInt8 :=
  ((p / groupSize + 1, p % groupSize + 1),
    window image (p * blockSize) (if p + 1 = total then last else blockSize))

/-- After the first `done` parts of `total`. -/
structure Lv3Invariant (openssl : OpenSsl) (name : String) (image : List UInt8) (total last done : Nat)
    (shell : Shell) : Prop where
  source : shell.files (.other name) = some image
  list : ∃ table, shell.files .l2 = some table
  leaves : leaves shell = (List.range done).map (leafAt image total last)
  parts : ∀ p, p < done →
    shell.files (.partOf (p / groupSize + 1) (p % groupSize + 1)) = some (leafAt image total last p).2
  slots : ∀ p, p < done → ∃ table, shell.files (.l2Of (p / groupSize + 1)) = some table ∧
    window table (p % groupSize * hashSize) hashSize = openssl.sha256 (leafAt image total last p).2

/-! ## One part -/

/-- The commands on one part. -/
theorem lv3Part_of_files {openssl : OpenSsl} {name : String} {loop : Lv3Loop} {image table : List UInt8}
    {j l1BlkNum i count : Nat} (source : loop.shell.files (.other name) = some image)
    (l2Of : loop.shell.files (.l2Of j) = some table)
    (taken : (if i ≠ l1BlkNum then blockSize else loop.l1BlkHashSz) = count) :
    lv3Part openssl (.other name) j l1BlkNum i loop =
      some { loop with
        shell :=
          { files := ((loop.shell.files.write (.partOf j i) (window image loop.imgCurr count)).write
              (.partOfHashBin j i) (openssl.sha256 (window image loop.imgCurr count))).write (.l2Of j)
              (ddOutput table loop.hashCurr
                (window (openssl.sha256 (window image loop.imgCurr count)) 0 hashSize) true)
            hashed := loop.shell.hashed ++ [(.partOf j i, window image loop.imgCurr count)] }
        imgCurr := loop.imgCurr + blockSize
        hashCurr := loop.hashCurr + hashSize } := by
  subst taken
  simp only [lv3Part]
  split <;> simp [Shell.dd, Shell.dgstBinary, Files.dd, source, l2Of]

theorem groupSize_pos : 0 < groupSize := by decide

theorem group_of (group : Nat) {index : Nat} (inside : index < groupSize) :
    (group * groupSize + index) / groupSize = group := by
  rw [Nat.mul_comm, Nat.mul_add_div groupSize_pos, Nat.div_eq_of_lt inside, Nat.add_zero]

theorem index_of (group : Nat) {index : Nat} (inside : index < groupSize) :
    (group * groupSize + index) % groupSize = index := by
  rw [Nat.mul_comm, Nat.mul_add_mod, Nat.mod_eq_of_lt inside]

/-- Two parts are the same where their groups and numbers are. -/
theorem eq_of_group_index {p q : Nat} (group : p / groupSize = q / groupSize) (index : p % groupSize = q % groupSize) :
    p = q := by
  rw [← Nat.div_add_mod p groupSize, ← Nat.div_add_mod q groupSize, group, index]

/-- Inside a group, after `index` of its parts. -/
structure InGroup (openssl : OpenSsl) (name : String) (image : List UInt8) (total last group size tableSize : Nat)
    (index : Nat) (loop : Lv3Loop) : Prop where
  done : Lv3Invariant openssl name image total last (group * groupSize + index) loop.shell
  imgCurr : loop.imgCurr = (group * groupSize + index) * blockSize
  hashCurr : loop.hashCurr = index * hashSize
  l1BlkHashSz : loop.l1BlkHashSz = size
  table : ∃ table, loop.shell.files (.l2Of (group + 1)) = some table ∧ table.length = tableSize

section Part

variable {openssl : OpenSsl} {name : String} {image : List UInt8} {total last : Nat}
variable (digests : ∀ bytes, (openssl.sha256 bytes).length = hashSize)
include digests

/-- The next part, whose group's table has room for its hash. -/
theorem lv3Part_invariant {group size tableSize index l1BlkNum : Nat} {loop : Lv3Loop} (inside : index < groupSize)
    (invariant : InGroup openssl name image total last group size tableSize index loop)
    (room : (index + 1) * hashSize ≤ tableSize)
    (taken : (if index + 1 ≠ l1BlkNum then blockSize else size) =
      if group * groupSize + index + 1 = total then last else blockSize) :
    ∃ loop', lv3Part openssl (.other name) (group + 1) l1BlkNum (index + 1) loop = some loop' ∧
      InGroup openssl name image total last group size tableSize (index + 1) loop' := by
  obtain ⟨invariant, atImage, atHash, sizeKept, table, l2Of, length⟩ := invariant
  subst length sizeKept
  have whole : window (openssl.sha256 (leafAt image total last (group * groupSize + index)).2) 0 hashSize =
      openssl.sha256 (leafAt image total last (group * groupSize + index)).2 := by
    rw [window_zero, List.take_of_length_le (Nat.le_of_eq (digests _))]
  have fits : index * hashSize + (openssl.sha256 (leafAt image total last (group * groupSize + index)).2).length ≤
      table.length := by
    rw [digests, ← Nat.succ_mul]
    exact room
  have bytes : window image loop.imgCurr (if group * groupSize + index + 1 = total then last else blockSize) =
      (leafAt image total last (group * groupSize + index)).2 := by
    rw [atImage, leafAt]
  have performed := @lv3Part_of_files openssl _ _ _ _ _ _ _ _ invariant.source l2Of taken
  rw [bytes, whole, atHash, ddOutput_inside fits] at performed
  refine ⟨_, performed, ?_, ?_, ?_, rfl, ?_⟩
  case refine_1 =>
    constructor
    case source => simpa using invariant.source
    case list => simpa using invariant.list
    case leaves =>
      have before := invariant.leaves
      simp only [leaves] at before
      have position : leafAt image total last (group * groupSize + index) =
          ((group + 1, index + 1), (leafAt image total last (group * groupSize + index)).2) := by
        rw [leafAt, group_of group inside, index_of group inside]
      rw [← Nat.add_assoc, List.range_succ, List.map_append, List.map_singleton, position, leaves,
        List.filterMap_append, before]
      rfl
    case parts =>
      intro p bound
      by_cases now : p = group * groupSize + index
      · simp [now, group_of group inside, index_of group inside]
      · have other : ¬ (p / groupSize = group ∧ p % groupSize = index) := by
          intro same
          refine now (eq_of_group_index ?_ ?_)
          · rw [group_of group inside, same.1]
          · rw [index_of group inside, same.2]
        simpa [other] using invariant.parts p (by omega)
    case slots =>
      intro p bound
      by_cases now : p = group * groupSize + index
      · have written := window_overlay_self fits
        rw [digests] at written
        refine ⟨overlay table (index * hashSize)
          (openssl.sha256 (leafAt image total last (group * groupSize + index)).2), ?_, ?_⟩
        · simp [now, group_of group inside]
        · rw [now, index_of group inside]
          exact written
      · obtain ⟨before, there, slot⟩ := invariant.slots p (by omega)
        by_cases same : p / groupSize = group
        · -- an earlier slot of the table that is written
          have earlier : p % groupSize < index := by
            have split := Nat.div_add_mod' p groupSize
            rw [same] at split
            omega
          rw [same, l2Of] at there
          cases there
          have below : (p % groupSize + 1) * hashSize ≤ index * hashSize := Nat.mul_le_mul_right _ earlier
          rw [Nat.succ_mul] at below
          refine ⟨_, by simp [same]; rfl, ?_⟩
          rw [window_overlay_disjoint (.inl below), slot]
        · exact ⟨before, by simpa [same] using there, slot⟩
  case refine_2 =>
    rw [atImage, ← Nat.succ_mul]
    rfl
  case refine_3 => exact (Nat.succ_mul _ _).symm
  case refine_4 =>
    exact ⟨overlay table (index * hashSize) (openssl.sha256 (leafAt image total last (group * groupSize + index)).2),
      by simp, length_overlay _ _ _⟩

/-! ## One group -/

omit digests in
/-- The table of a group that is not begun may be made anew. -/
theorem Lv3Invariant.ddZero {group : Nat} {shell : Shell}
    (invariant : Lv3Invariant openssl name image total last (group * groupSize) shell) (count : Nat) :
    Lv3Invariant openssl name image total last (group * groupSize) (shell.ddZero (.l2Of (group + 1)) count) := by
  constructor
  case source => simpa [Shell.ddZero, Files.ddZero] using invariant.source
  case list => simpa [Shell.ddZero, Files.ddZero] using invariant.list
  case leaves => exact invariant.leaves
  case parts => simpa [Shell.ddZero, Files.ddZero] using invariant.parts
  case slots =>
    intro p bound
    have before : p / groupSize ≠ group := Nat.ne_of_lt (Nat.div_lt_of_lt_mul (by rwa [Nat.mul_comm]))
    simpa [Shell.ddZero, Files.ddZero, before] using invariant.slots p bound

omit digests in
/-- The commands after the loop over the parts of a group. -/
theorem Lv3Invariant.closeGroup {done j : Nat} {shell : Shell} {table : List UInt8}
    (invariant : Lv3Invariant openssl name image total last done shell) (seek : Nat)
    (l2Of : shell.files (.l2Of j) = some table) :
    ∃ hashed shell', shell.dgstBinary openssl (.l2OfHashBin j) (.l2Of j) = some hashed ∧
      hashed.dd (.l2OfHashBin j) .l2 0 seek hashSize true = some shell' ∧
      Lv3Invariant openssl name image total last done shell' := by
  obtain ⟨list, there⟩ := invariant.list
  refine ⟨_, _, by simp [Shell.dgstBinary, l2Of]; rfl, by simp [Shell.dd, Files.dd]; rfl, ?_⟩
  constructor
  case source => simpa using invariant.source
  case list => simp
  case leaves =>
    have before := invariant.leaves
    simp only [SafeBoot.leaves] at before
    simp [SafeBoot.leaves, leaf?, before]
  case parts => simpa using invariant.parts
  case slots => simpa using invariant.slots

theorem lv3Group_invariant {group l2BlkNum l2BlkSzMod count size : Nat} {loop : Lv3Loop}
    (counts : lv3Counts l2BlkNum l2BlkSzMod (group + 1) loop.l1BlkHashSz = (count, size))
    (bound : count ≤ groupSize)
    (invariant : Lv3Invariant openssl name image total last (group * groupSize) loop.shell)
    (atImage : loop.imgCurr = group * groupSize * blockSize) (atHash : loop.hashCurr = 0)
    (taken : ∀ index, index < count → (if index + 1 ≠ count then blockSize else size) =
      if group * groupSize + index + 1 = total then last else blockSize) :
    ∃ loop', lv3Group openssl (.other name) l2BlkNum l2BlkSzMod (group + 1) loop = some loop' ∧
      Lv3Invariant openssl name image total last (group * groupSize + count) loop'.shell ∧
      loop'.imgCurr = (group * groupSize + count) * blockSize ∧ loop'.hashCurr = 0 ∧
      loop'.l1BlkHashSz = size := by
  simp only [lv3Group, counts]
  generalize tableSize : (if group + 1 = l2BlkNum then hashSetL2Sz count else count * hashSize) = l2HashSz
  -- the table has a slot for each part, in the last group and in the full ones
  have room : count * hashSize ≤ l2HashSz := by
    subst tableSize
    split
    · exact le_hashSetL2Sz count
    · exact Nat.le_refl _
  have initially : InGroup openssl name image total last group size l2HashSz 0
      { loop with shell := loop.shell.ddZero (.l2Of (group + 1)) l2HashSz, l1BlkHashSz := size } := by
    constructor
    case done => simpa only [Nat.add_zero] using invariant.ddZero l2HashSz
    case imgCurr => simpa only [Nat.add_zero] using atImage
    case hashCurr => rw [Nat.zero_mul]; exact atHash
    case l1BlkHashSz => rfl
    case table => exact ⟨List.replicate l2HashSz 0, by simp [Shell.ddZero, Files.ddZero], List.length_replicate⟩
  obtain ⟨after, reached, invariant⟩ := forSeq_invariant count (lv3Part openssl (.other name) (group + 1) count)
    (InGroup openssl name image total last group size l2HashSz) initially (by
      intro index loop inside invariant
      have slot : (index + 1) * hashSize ≤ count * hashSize := Nat.mul_le_mul_right _ inside
      exact lv3Part_invariant digests (Nat.lt_of_lt_of_le inside bound) invariant (Nat.le_trans slot room)
        (taken index inside))
  obtain ⟨table, there, _⟩ := invariant.table
  obtain ⟨hashed, shell', digest, stored, closed⟩ := invariant.done.closeGroup after.l2HashCurr there
  refine ⟨{ after with shell := shell', hashCurr := 0, l2HashCurr := after.l2HashCurr + hashSize }, ?_, closed,
    invariant.imgCurr, rfl, invariant.l1BlkHashSz⟩
  simp only [reached, bind, Option.bind_some, digest, stored]

end Part

/-! ## The whole run -/

/-- `l1_blk_num` and `l1_blk_hash_sz` in the last group of an image that has several, or one
that is not full. -/
def lastGroup (length : Nat) : Nat × Nat :=
  lv3Counts (length / hashSetL3BlkSz) (length % hashSetL3BlkSz) (length / hashSetL3BlkSz) blockSize

/-- How many parts are hashed. -/
def partCount (length : Nat) : Nat := (length / hashSetL3BlkSz - 1) * groupSize + (lastGroup length).1

/-- How many bytes the last group covers. -/
def lastGroupSize (length : Nat) : Nat :=
  if length % hashSetL3BlkSz = 0 then hashSetL3BlkSz else length % hashSetL3BlkSz

theorem lastGroup_covers (length : Nat) :
    0 < (lastGroup length).1 ∧ (lastGroup length).1 ≤ groupSize ∧ (lastGroup length).2 ≤ blockSize ∧
      ((lastGroup length).1 - 1) * blockSize + (lastGroup length).2 = lastGroupSize length := by
  have bound : length % hashSetL3BlkSz < hashSetL3BlkSz := Nat.mod_lt _ (by decide)
  have split := Nat.div_add_mod' (length % hashSetL3BlkSz) blockSize
  have rest : length % hashSetL3BlkSz % blockSize < blockSize := Nat.mod_lt _ blockSize_pos
  have size : hashSetL3BlkSz = groupSize * blockSize := by decide
  have full : groupSize = 1024 := by decide
  simp only [lastGroup, lv3Counts, lastGroupSize, ne_eq, not_true_eq_false, if_false]
  generalize length % hashSetL3BlkSz = m at *
  by_cases whole : m = 0
  · simp only [if_pos whole]
    exact ⟨by decide, by decide, Nat.le_refl _, by decide⟩
  · simp only [if_neg whole]
    -- without a rest the last part is a whole block
    by_cases even : m % blockSize = 0
    · simp only [even, not_true_eq_false, if_false]
      simp only [size, full, blockSize] at *
      omega
    · simp only [even, not_false_eq_true, if_true]
      simp only [size, full, blockSize] at *
      omega

/-- What a run of `process_hash_set_lv3` leaves of its loops: in the last group all parts are
done, before it the groups that were passed. -/
structure GroupsDone (openssl : OpenSsl) (name : String) (image : List UInt8) (done : Nat) (loop : Lv3Loop) :
    Prop where
  before : done < image.length / hashSetL3BlkSz →
    Lv3Invariant openssl name image (partCount image.length) (lastGroup image.length).2 (done * groupSize) loop.shell ∧
      loop.imgCurr = done * groupSize * blockSize ∧ loop.hashCurr = 0 ∧
      loop.l1BlkHashSz = if done = 0 then 0 else blockSize
  after : done = image.length / hashSetL3BlkSz →
    Lv3Invariant openssl name image (partCount image.length) (lastGroup image.length).2 (partCount image.length)
      loop.shell

section Run

variable {openssl : OpenSsl} {name : String} {image : List UInt8}
variable (digests : ∀ bytes, (openssl.sha256 bytes).length = hashSize)
include digests

theorem lv3Group_groupsDone (long : hashSetL3BlkSz < image.length) {done : Nat} {loop : Lv3Loop}
    (inside : done < image.length / hashSetL3BlkSz) (invariant : GroupsDone openssl name image done loop) :
    ∃ loop', lv3Group openssl (.other name) (image.length / hashSetL3BlkSz) (image.length % hashSetL3BlkSz) (done + 1)
        loop = some loop' ∧ GroupsDone openssl name image (done + 1) loop' := by
  obtain ⟨kept, atImage, atHash, size⟩ := invariant.before inside
  obtain ⟨some, bound, _, _⟩ := lastGroup_covers image.length
  by_cases last : done + 1 = image.length / hashSetL3BlkSz
  · -- in the last group `l1_blk_hash_sz` is what the group before it left, and there is one
    have counts : lv3Counts (image.length / hashSetL3BlkSz) (image.length % hashSetL3BlkSz) (done + 1)
        loop.l1BlkHashSz = ((lastGroup image.length).1, (lastGroup image.length).2) := by
      change _ = lastGroup image.length
      rw [lastGroup, ← last]
      simp only [lv3Counts, ne_eq, not_true_eq_false, if_false]
      split
      case isTrue whole =>
        have several : done ≠ 0 := by
          intro first
          have exact := Nat.div_add_mod' image.length hashSetL3BlkSz
          rw [← last, first, whole] at exact
          omega
        rw [size, if_neg several]
      case isFalse => rfl
    have total : partCount image.length = done * groupSize + (lastGroup image.length).1 := by
      rw [partCount, ← last, Nat.add_sub_cancel]
    obtain ⟨loop', performed, kept', _, _, _⟩ := lv3Group_invariant digests counts bound kept atImage atHash (by
      intro index inside
      rw [total]
      by_cases final : index + 1 = (lastGroup image.length).1
      · simp [final, Nat.add_assoc]
      · rw [if_pos final, if_neg (by omega)])
    refine ⟨loop', performed, ?_, ?_⟩
    case refine_1 => exact fun more => absurd last (Nat.ne_of_lt more)
    case refine_2 =>
      intro _
      rw [← total] at kept'
      exact kept'
  · have counts : lv3Counts (image.length / hashSetL3BlkSz) (image.length % hashSetL3BlkSz) (done + 1)
        loop.l1BlkHashSz = (groupSize, blockSize) := by
      rw [lv3Counts, if_pos last]
      rfl
    have later : (done + 1) * groupSize < partCount image.length := by
      have groups : (done + 1) * groupSize ≤ (image.length / hashSetL3BlkSz - 1) * groupSize :=
        Nat.mul_le_mul_right _ (by omega)
      rw [partCount]
      omega
    rw [Nat.succ_mul] at later
    obtain ⟨loop', performed, kept', atImage', atHash', size'⟩ := lv3Group_invariant digests counts
      (Nat.le_refl _) kept atImage atHash (by
        intro index inside
        rw [if_neg (show done * groupSize + index + 1 ≠ partCount image.length by omega), ite_self])
    rw [← Nat.succ_mul] at kept' atImage'
    exact ⟨loop', performed, fun _ => ⟨kept', atImage', atHash', by simp [size']⟩, fun same => absurd same last⟩

theorem processHashSetLv3_done (long : hashSetL3BlkSz < image.length) {files : Files FileName}
    (source : files (.other name) = some image) :
    ∃ after, processHashSetLv3 openssl (.other name) (.start files) = some after ∧
      Lv3Invariant openssl name image (partCount image.length) (lastGroup image.length).2 (partCount image.length)
        after := by
  have several : 0 < image.length / hashSetL3BlkSz := Nat.div_pos (Nat.le_of_lt long) (by decide)
  have initially : GroupsDone openssl name image 0 ⟨(Shell.start files).ddZero .l2 0, 0, 0, 0, 0⟩ := by
    constructor
    case before =>
      intro _
      refine ⟨?_, by simp, rfl, rfl⟩
      rw [Nat.zero_mul]
      constructor <;> simp [Shell.start, Shell.ddZero, Files.ddZero, source, leaves]
    case after => exact fun none => absurd several (by omega)
  obtain ⟨loop, reached, invariant⟩ := forSeq_invariant (image.length / hashSetL3BlkSz)
    (lv3Group openssl (.other name) (image.length / hashSetL3BlkSz) (image.length % hashSetL3BlkSz))
    (GroupsDone openssl name image) initially
    (fun _ _ inside invariant => lv3Group_groupsDone digests long inside invariant)
  have kept := invariant.after rfl
  obtain ⟨table, there⟩ := kept.list
  simp only [processHashSetLv3, Shell.start, source, bind, Option.bind_some]
  simp only [Shell.start] at reached
  rw [reached]
  refine ⟨_, by simp [Shell.dgstBinary, there]; rfl, ?_⟩
  -- the last command hashes the list of the tables' hashes
  constructor
  case source => simpa using kept.source
  case list => simpa using kept.list
  case leaves =>
    have before := kept.leaves
    simp only [leaves] at before
    simp [leaves, leaf?, before]
  case parts => simpa using kept.parts
  case slots => simpa using kept.slots

end Run

/-! ## What the parts cover -/

/-- The parts are the beginning of the image, up to the end of the last part. -/
theorem flatten_leaves (image : List UInt8) (last count : Nat) :
    (((List.range (count + 1)).map (leafAt image (count + 1) last)).map Prod.snd).flatten =
      image.take (count * blockSize + last) := by
  have full : ((List.range count).map (leafAt image (count + 1) last)).map Prod.snd = blocks blockSize count image := by
    rw [blocks, List.map_map]
    refine List.map_congr_left fun p member => ?_
    have below := List.mem_range.mp member
    simp only [Function.comp, leafAt, if_neg (show p + 1 ≠ count + 1 by omega)]
  rw [List.range_succ, List.map_append, List.map_append, full, List.flatten_append, flatten_blocks]
  simp [leafAt, window, List.take_add]

section Authenticates

variable {openssl : OpenSsl} {name : String} {image : List UInt8} {after : Shell}

/-- The parts that are hashed are the whole image where its size is a multiple of 32 MiB. -/
theorem authenticates_iff (long : hashSetL3BlkSz < image.length)
    (done : Lv3Invariant openssl name image (partCount image.length) (lastGroup image.length).2
      (partCount image.length) after) :
    Authenticates openssl image after ↔ image.length % hashSetL3BlkSz = 0 := by
  obtain ⟨some, _, short, covers⟩ := lastGroup_covers image.length
  have split := Nat.div_add_mod' image.length hashSetL3BlkSz
  have several : 0 < image.length / hashSetL3BlkSz := Nat.div_pos (Nat.le_of_lt long) (by decide)
  obtain ⟨count, parts⟩ : ∃ count, partCount image.length = count + 1 :=
    ⟨partCount image.length - 1, by rw [partCount]; omega⟩
  have groups : groupSize * blockSize = hashSetL3BlkSz := by decide
  have reach : count * blockSize + (lastGroup image.length).2 =
      (image.length / hashSetL3BlkSz - 1) * hashSetL3BlkSz + lastGroupSize image.length := by
    have before : count = (image.length / hashSetL3BlkSz - 1) * groupSize + ((lastGroup image.length).1 - 1) := by
      rw [partCount] at parts
      omega
    rw [before, Nat.add_mul, Nat.mul_assoc, groups, Nat.add_assoc, covers]
  have flat := flatten_leaves image (lastGroup image.length).2 count
  rw [← parts, ← done.leaves, reach] at flat
  have inside : (image.length / hashSetL3BlkSz - 1) * hashSetL3BlkSz + lastGroupSize image.length ≤ image.length := by
    obtain ⟨before, one⟩ : ∃ before, image.length / hashSetL3BlkSz = before + 1 :=
      ⟨_, (Nat.sub_add_cancel several).symm⟩
    rw [one, Nat.add_sub_cancel, lastGroupSize]
    rw [one, Nat.succ_mul] at split
    split <;> omega
  constructor
  · -- an image of another size has 32 MiB more than the parts have
    intro authenticates
    by_contra rest
    have length := congrArg List.length (flat.symm.trans authenticates.whole)
    obtain ⟨before, one⟩ : ∃ before, image.length / hashSetL3BlkSz = before + 1 :=
      ⟨_, (Nat.sub_add_cancel several).symm⟩
    have positive : 0 < hashSetL3BlkSz := by decide
    rw [List.length_take_of_le inside, one, Nat.add_sub_cancel, lastGroupSize, if_neg rest] at length
    rw [one, Nat.succ_mul] at split
    omega
  · intro whole
    have member : ∀ leaf ∈ leaves after, ∃ p, p < partCount image.length ∧
        leaf = leafAt image (partCount image.length) (lastGroup image.length).2 p := by
      intro leaf member
      rw [done.leaves] at member
      obtain ⟨p, bound, rfl⟩ := List.mem_map.mp member
      exact ⟨p, List.mem_range.mp bound, rfl⟩
    constructor
    case ordered =>
      rw [done.leaves]
      refine List.Pairwise.map _ (fun p q before => ?_) List.pairwise_lt_range
      -- a later part is in a later group or further on in its group
      have first := Nat.div_add_mod' p groupSize
      have second := Nat.div_add_mod' q groupSize
      have groups : p / groupSize ≤ q / groupSize := Nat.div_le_div_right (Nat.le_of_lt before)
      simp only [leafAt]
      by_cases same : p / groupSize = q / groupSize
      · rw [same] at first
        exact .inr ⟨by rw [same], by omega⟩
      · exact .inl (by omega)
    case parts =>
      intro leaf there
      obtain ⟨p, bound, rfl⟩ := member leaf there
      exact done.parts p bound
    case whole =>
      obtain ⟨before, one⟩ : ∃ before, image.length / hashSetL3BlkSz = before + 1 :=
        ⟨_, (Nat.sub_add_cancel several).symm⟩
      rw [flat, List.take_of_length_le]
      rw [one, whole, Nat.succ_mul] at split
      rw [one, Nat.add_sub_cancel, lastGroupSize, if_pos whole]
      omega
    case full =>
      intro leaf there
      rw [done.leaves, parts, List.range_succ, List.map_append, List.map_singleton, List.dropLast_concat] at there
      obtain ⟨p, bound, rfl⟩ := List.mem_map.mp there
      have below : (p + 1) * blockSize ≤ count * blockSize := Nat.mul_le_mul_right _ (List.mem_range.mp bound)
      have earlier := List.mem_range.mp bound
      rw [Nat.succ_mul] at below
      simp only [leafAt, if_neg (show p + 1 ≠ count + 1 by omega)]
      exact length_window_of_le (by omega)
    case slots =>
      intro leaf there
      obtain ⟨p, bound, rfl⟩ := member leaf there
      exact ⟨Nat.le_add_left _ _, done.slots p bound⟩

end Authenticates

theorem hashImage_lv3_done {openssl : OpenSsl} {name : String} {image : List UInt8} {files : Files FileName}
    (digests : ∀ bytes, (openssl.sha256 bytes).length = hashSize) (long : hashSetL3BlkSz < image.length)
    (source : files (.other name) = some image) :
    ∃ after, hashImage openssl (.other name) (.start files) = some after ∧
      Lv3Invariant openssl name image (partCount image.length) (lastGroup image.length).2 (partCount image.length)
        after := by
  obtain ⟨after, performed, done⟩ := processHashSetLv3_done digests long source
  refine ⟨after, ?_, done⟩
  simp only [hashImage, Shell.start, source, bind, Option.bind_some, if_pos long]
  exact performed

/-- Every image of more than 32 MiB is hashed without an error, and is authenticated where
its size is a multiple of 32 MiB. -/
theorem hashImage_authenticates_iff (openssl : OpenSsl) {name : String} {image : List UInt8} {files : Files FileName}
    (digests : ∀ bytes, (openssl.sha256 bytes).length = hashSize) (long : hashSetL3BlkSz < image.length)
    (source : files (.other name) = some image) :
    ∃ after, hashImage openssl (.other name) (.start files) = some after ∧
      (Authenticates openssl image after ↔ image.length % hashSetL3BlkSz = 0) := by
  obtain ⟨after, performed, done⟩ := hashImage_lv3_done digests long source
  exact ⟨after, performed, authenticates_iff long done⟩

/-- SHA-256 on what is hashed of an image of 33554433 bytes `0xff`: the only part, of one
byte, the table of its hash, and the hash of that table. -/
def sha256OfOnes (bytes : List UInt8) : List UInt8 :=
  if bytes.length = 1 then
    [0xa8, 0x10, 0x0a, 0xe6, 0xaa, 0x19, 0x40, 0xd0, 0xb6, 0x63, 0xbb, 0x31, 0xcd, 0x46, 0x61, 0x42,
    0xeb, 0xbd, 0xbd, 0x51, 0x87, 0x13, 0x1b, 0x92, 0xd9, 0x38, 0x18, 0x98, 0x78, 0x32, 0xeb, 0x89]
  else if bytes.length = 64 then
    [0x70, 0xc3, 0xcc, 0x14, 0xdc, 0x26, 0x40, 0xa0, 0xc1, 0x22, 0xfa, 0xc2, 0xf7, 0x4b, 0xd8, 0x87,
    0x87, 0x7f, 0x21, 0x79, 0xb0, 0x12, 0xd0, 0x91, 0x1a, 0xe2, 0xf6, 0x0f, 0x19, 0x57, 0xae, 0x7a]
  else
    [0x89, 0x6d, 0xd1, 0xdd, 0xb1, 0x0e, 0x65, 0xd9, 0x36, 0xa3, 0x2e, 0x68, 0xdb, 0x6f, 0x37, 0x66,
    0x0b, 0x31, 0x01, 0x3f, 0x12, 0xb9, 0xb0, 0xb9, 0x79, 0xae, 0x17, 0xfa, 0xaa, 0xad, 0xcf, 0x26]

theorem length_sha256OfOnes (bytes : List UInt8) : (sha256OfOnes bytes).length = hashSize := by
  simp only [sha256OfOnes]
  split
  · rfl
  · split <;> rfl

theorem ones_long : hashSetL3BlkSz < (List.replicate 33554433 (0xff : UInt8)).length := by
  rw [List.length_replicate]
  decide

theorem hashImage_authenticates_iff_ones :
    ∃ after, hashImage ⟨sha256OfOnes, fun _ _ => []⟩ (.other "image")
        (.start (directoryOf (List.replicate 33554433 0xff))) = some after ∧
      (Authenticates ⟨sha256OfOnes, fun _ _ => []⟩ (List.replicate 33554433 0xff) after ↔
        (List.replicate 33554433 (0xff : UInt8)).length % hashSetL3BlkSz = 0) :=
  hashImage_authenticates_iff ⟨sha256OfOnes, fun _ _ => []⟩ length_sha256OfOnes ones_long (directoryOf_image _)

/-- Of an image one byte longer than 32 MiB one byte is authenticated. -/
theorem not_authenticates_ones :
    ∃ after, hashImage ⟨sha256OfOnes, fun _ _ => []⟩ (.other "image")
        (.start (directoryOf (List.replicate 33554433 0xff))) = some after ∧
      ¬ Authenticates ⟨sha256OfOnes, fun _ _ => []⟩ (List.replicate 33554433 0xff) after := by
  obtain ⟨after, performed, done⟩ := @hashImage_lv3_done ⟨sha256OfOnes, fun _ _ => []⟩ _ _ _
    length_sha256OfOnes ones_long (directoryOf_image _)
  refine ⟨after, performed, ?_⟩
  rw [authenticates_iff ones_long done, List.length_replicate]
  decide

end KernelLearning.SafeBoot
