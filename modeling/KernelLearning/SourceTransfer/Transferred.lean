import KernelLearning.SourceTransfer.Scripts

/-!
# What a script creates

The listing that a script sees, with its source files renamed and its other files
left out, under the output directory.  Directories keep their names, and there a
renamed file can be in the way.
-/

namespace KernelLearning.SourceTransfer

open FileTrees Folder Listing

/-! ## What a script creates -/

/-- The listing with its source files renamed and without its other files. -/
def transferred : Listing Name → Listing Name
  | .nil => .nil
  | .file name bytes rest =>
    match renamed name with
    | none => transferred rest
    | some other => .file other bytes (transferred rest)
  | .dir name inside rest =>
    if name = outputDir then transferred rest else .dir name (transferred inside) (transferred rest)

variable {target : Path Name → Path Name} {tree seen : Listing Name} {folder : Folder Name}
  {path front : Path Name} {bytes : List UInt8} {name other : Name}

theorem listFilepath_eq (targets : ∀ fileD, target fileD = outputDir :: fileD) (filePath : Path Name)
    (listing : Listing Name) (folder : Folder Name) :
    listFilepath target filePath listing folder =
      folder.createAll (placed (outputDir :: filePath) (transferred listing)) := by
  induction listing generalizing filePath folder with
  | nil => rfl
  | file name bytes rest inductionHypothesis =>
    rw [listFilepath, fileTrans, transferred]
    -- what `file_trans` writes is what the listing has under the new name
    cases renamed name with
    | none => exact inductionHypothesis filePath folder
    | some other =>
      simp only [placed_file, createAll_cons, create, targets, List.cons_append, inductionHypothesis]
  | dir name inside rest insideHypothesis inductionHypothesis =>
    rw [listFilepath, transferred]
    split
    · exact inductionHypothesis filePath folder
    · simp only [placed_dir, createAll_cons, createAll_append, create, targets, List.cons_append,
        insideHypothesis, inductionHypothesis]

/-! ## Directories and files of the result -/

theorem directory_mem_transferred {listing : Listing Name} :
    (path, .directory) ∈ (transferred listing).contents ↔
      (path, .directory) ∈ listing.contents ∧ outputDir ∉ path := by
  induction listing generalizing path with
  | nil => simp [transferred, contents]
  | file name bytes rest inductionHypothesis =>
    rw [transferred, mem_contents_file]
    cases renamed name with
    | none => simp [inductionHypothesis]
    | some other => simp [mem_contents_file, inductionHypothesis]
  | dir name inside rest insideHypothesis inductionHypothesis =>
    rw [transferred, mem_contents_dir]
    split
    · rename_i skipped
      rw [inductionHypothesis]
      constructor
      · rintro ⟨member, outside⟩
        exact ⟨.inr (.inr member), outside⟩
      -- what is in the output directory has its name in the path
      · rintro ⟨⟨rfl, _⟩ | ⟨below, rfl, _⟩ | member, outside⟩
        · exact absurd (List.mem_singleton.mpr skipped.symm) outside
        · exact absurd (List.mem_cons.mpr (.inl skipped.symm)) outside
        · exact ⟨member, outside⟩
    · rename_i kept
      simp only [mem_contents_dir, insideHypothesis, inductionHypothesis]
      constructor
      · rintro (⟨rfl, _⟩ | ⟨below, rfl, member, outside⟩ | ⟨member, outside⟩)
        · exact ⟨.inl ⟨rfl, trivial⟩, by simpa using Ne.symm kept⟩
        · exact ⟨.inr (.inl ⟨below, rfl, member⟩), by simpa using ⟨Ne.symm kept, outside⟩⟩
        · exact ⟨.inr (.inr member), outside⟩
      · rintro ⟨⟨rfl, _⟩ | ⟨below, rfl, member⟩ | member, outside⟩
        · exact .inl ⟨rfl, trivial⟩
        · exact .inr (.inl ⟨below, rfl, member, fun inner => outside (List.mem_cons_of_mem _ inner)⟩)
        · exact .inr (.inr ⟨member, outside⟩)

theorem file_mem_transferred {listing : Listing Name} :
    (front ++ [other], .file bytes) ∈ (transferred listing).contents ↔
      outputDir ∉ front ∧ ∃ name, renamed name = some other ∧ (front ++ [name], .file bytes) ∈ listing.contents := by
  induction listing generalizing front with
  | nil => simp [transferred, contents]
  | file here there rest inductionHypothesis =>
    rw [transferred]
    simp only [mem_contents_file]
    -- a file of this directory has an empty front
    have root : ∀ name here : Name, front ++ [name] = [here] ↔ front = [] ∧ name = here := by
      intro name here
      cases front <;> simp
    cases result : renamed here with
    | none =>
      rw [inductionHypothesis]
      refine and_congr_right fun _ => exists_congr fun name => and_congr_right fun renames => ?_
      rw [root]
      refine (or_iff_right ?_).symm
      rintro ⟨⟨_, rfl⟩, _⟩
      rw [result] at renames
      contradiction
    | some new =>
      rw [mem_contents_file, inductionHypothesis]
      constructor
      · rintro (⟨same, content⟩ | ⟨outside, name, renames, member⟩)
        · obtain ⟨rfl, rfl⟩ := (root other new).mp same
          exact ⟨by simp, here, result, .inl ⟨rfl, content⟩⟩
        · exact ⟨outside, name, renames, .inr member⟩
      · rintro ⟨outside, name, renames, ⟨same, content⟩ | member⟩
        · obtain ⟨rfl, rfl⟩ := (root name here).mp same
          rw [result, Option.some.injEq] at renames
          exact .inl ⟨by rw [renames, List.nil_append], content⟩
        · exact .inr ⟨outside, name, renames, member⟩
  | dir here inside rest insideHypothesis inductionHypothesis =>
    rw [transferred]
    simp only [mem_contents_dir]
    -- a file of the subdirectory
    have deeper : ∀ (listing : Listing Name) (name : Name),
        (∃ below, front ++ [name] = here :: below ∧ (below, .file bytes) ∈ listing.contents) ↔
          ∃ rest, front = here :: rest ∧ (rest ++ [name], .file bytes) ∈ listing.contents := by
      intro listing name
      cases front with
      | nil =>
        simp only [List.nil_append, List.cons.injEq, reduceCtorEq, false_and, exists_false, iff_false]
        rintro ⟨below, ⟨_, rfl⟩, member⟩
        exact nil_notMem_contents member
      | cons first front => simp
    split
    · rename_i skipped
      rw [inductionHypothesis]
      refine and_congr_right fun outside => exists_congr fun name => and_congr_right fun _ => ?_
      simp only [reduceCtorEq, and_false, false_or, deeper]
      refine (or_iff_right ?_).symm
      rintro ⟨rest, rfl, _⟩
      exact outside (List.mem_cons.mpr (.inl skipped.symm))
    · rename_i kept
      simp only [mem_contents_dir, reduceCtorEq, and_false, false_or, deeper, inductionHypothesis]
      constructor
      · rintro (⟨rest, rfl, member⟩ | ⟨outside, name, renames, member⟩)
        · obtain ⟨outside, name, renames, member⟩ := insideHypothesis.mp member
          exact ⟨by simpa using ⟨Ne.symm kept, outside⟩, name, renames, .inl ⟨rest, rfl, member⟩⟩
        · exact ⟨outside, name, renames, .inr member⟩
      · rintro ⟨outside, name, renames, ⟨rest, rfl, member⟩ | member⟩
        · exact .inl ⟨rest, rfl, insideHypothesis.mpr
            ⟨fun inner => outside (List.mem_cons_of_mem _ inner), name, renames, member⟩⟩
        · exact .inr ⟨outside, name, renames, member⟩

/-- What a script creates depends on the entries it sees outside the output directory. -/
theorem mem_transferred_congr {content : Content} (same : ∀ path content, outputDir ∉ path →
    ((path, content) ∈ seen.contents ↔ (path, content) ∈ tree.contents)) :
    (path, content) ∈ (transferred seen).contents ↔ (path, content) ∈ (transferred tree).contents := by
  cases content with
  | directory =>
    rw [directory_mem_transferred, directory_mem_transferred]
    exact and_congr_left fun outside => same path _ outside
  | file bytes =>
    rcases List.eq_nil_or_concat path with rfl | ⟨front, other, rfl⟩
    · exact iff_of_false nil_notMem_contents nil_notMem_contents
    rw [List.concat_eq_append, file_mem_transferred, file_mem_transferred]
    refine and_congr_right fun outside => exists_congr fun name => and_congr_right fun renames => ?_
    refine same _ _ ?_
    rw [List.mem_append, List.mem_singleton, not_or]
    exact ⟨outside, (renamed_ne_outputDir (renamed_symm renames)).symm⟩

/-! ## Nothing in the way -/

/-- No directory has a source file and a subdirectory of the name that the file is written under. -/
def NoClash (tree : Listing Name) : Prop :=
  ∀ front name other bytes, renamed name = some other → (front ++ [name], .file bytes) ∈ tree.contents →
    (front ++ [other], .directory) ∉ tree.contents

/-- Nothing is named like the output directory. -/
def NoOutput (tree : Listing Name) : Prop := ∀ path content, (path, content) ∈ tree.contents → outputDir ∉ path

theorem noClash_inside {rest inside : Listing Name} (noClash : NoClash (.dir name inside rest)) : NoClash inside := by
  intro front file other bytes renames isFile isDirectory
  exact noClash (name :: front) file other bytes renames
    (mem_contents_dir.mpr (.inr (.inl ⟨_, rfl, isFile⟩))) (mem_contents_dir.mpr (.inr (.inl ⟨_, rfl, isDirectory⟩)))

theorem noClash_rest {rest inside : Listing Name} (noClash : NoClash (.dir name inside rest)) : NoClash rest := by
  intro front file other bytes renames isFile isDirectory
  exact noClash front file other bytes renames
    (mem_contents_dir.mpr (.inr (.inr isFile))) (mem_contents_dir.mpr (.inr (.inr isDirectory)))

/-- Without a clash the renamed files and the directories have names of their own. -/
theorem wellFormed_transferred {listing : Listing Name} (wellFormed : listing.WellFormed)
    (noClash : NoClash listing) : (transferred listing).WellFormed := by
  induction listing with
  | nil => trivial
  | file name bytes rest inductionHypothesis =>
    obtain ⟨fresh, wellFormed⟩ := wellFormed
    have restClash : NoClash rest := by
      intro front file other bytes renames isFile isDirectory
      exact noClash front file other bytes renames
        (mem_contents_file.mpr (.inr isFile)) (mem_contents_file.mpr (.inr isDirectory))
    have restWellFormed := inductionHypothesis wellFormed restClash
    rw [transferred]
    split
    · exact restWellFormed
    · rename_i other renames
      refine ⟨fun taken => ?_, restWellFormed⟩
      -- a directory of that name is a clash, a file of that name was renamed from the same one
      obtain ⟨content, member⟩ := mem_names_iff.mp taken
      cases content with
      | directory =>
        have isDirectory := (directory_mem_transferred.mp member).1
        exact noClash [] name other bytes renames (mem_contents_file.mpr (.inl ⟨rfl, rfl⟩))
          (mem_contents_file.mpr (.inr isDirectory))
      | file otherBytes =>
        have member : ([] ++ [other], Content.file otherBytes) ∈ (transferred rest).contents := member
        obtain ⟨_, second, again, isFile⟩ := file_mem_transferred.mp member
        rw [renamed_injective again renames] at isFile
        exact fresh (head_mem_names isFile)
  | dir name inside rest insideHypothesis inductionHypothesis =>
    obtain ⟨fresh, insideWellFormed, wellFormed⟩ := wellFormed
    have restWellFormed := inductionHypothesis wellFormed (noClash_rest noClash)
    rw [transferred]
    split
    · exact restWellFormed
    · refine ⟨fun taken => ?_, insideHypothesis insideWellFormed (noClash_inside noClash), restWellFormed⟩
      obtain ⟨content, member⟩ := mem_names_iff.mp taken
      cases content with
      | directory => exact fresh (head_mem_names (directory_mem_transferred.mp member).1)
      | file bytes =>
        have member : ([] ++ [name], Content.file bytes) ∈ (transferred rest).contents := member
        obtain ⟨_, file, renames, isFile⟩ := file_mem_transferred.mp member
        exact noClash [] file name bytes renames (mem_contents_dir.mpr (.inr (.inr isFile)))
          (mem_contents_dir.mpr (.inl ⟨rfl, rfl⟩))

/-! ## One script -/

section

variable (lists : folder.Lists tree) (noOutput : NoOutput tree)

include lists noOutput

theorem outputDir_free : folder [outputDir] = none := by
  rw [Option.eq_none_iff_forall_ne_some]
  intro content found
  obtain ⟨root, _⟩ | member := (lists _ _).mp found
  · contradiction
  · exact noOutput _ _ member (List.mem_singleton_self _)

theorem makeOutput_eq : makeOutput folder = some (folder.set [outputDir] .directory) := by
  have free := outputDir_free lists noOutput
  have root : folder [] = some .directory := (lists [] .directory).mpr (.inl ⟨rfl, rfl⟩)
  rw [makeOutput, if_pos free]
  exact if_pos ⟨free, root⟩

/-- The script sees what was there, and the output directory. -/
theorem mem_seen_iff (sees : (folder.set [outputDir] .directory).Lists seen) (content : Content) :
    (path, content) ∈ seen.contents ↔
      (path, content) ∈ tree.contents ∨ path = [outputDir] ∧ content = .directory := by
  have sides := sees path content
  rw [set_eq_some_of_free (outputDir_free lists noOutput), lists path content] at sides
  by_cases root : path = []
  · rw [root]
    exact iff_of_false nil_notMem_contents (by simp [nil_notMem_contents])
  · simpa only [root, false_and, false_or] using sides.symm

theorem mem_transferred_seen_iff (sees : (folder.set [outputDir] .directory).Lists seen) (content : Content) :
    (path, content) ∈ (transferred seen).contents ↔ (path, content) ∈ (transferred tree).contents := by
  refine mem_transferred_congr fun path content outside => ?_
  rw [mem_seen_iff lists noOutput sees content]
  refine or_iff_left ?_
  rintro ⟨rfl, _⟩
  exact outside (List.mem_singleton_self _)

theorem noClash_seen (sees : (folder.set [outputDir] .directory).Lists seen) (noClash : NoClash tree) :
    NoClash seen := by
  intro front name other bytes renames isFile isDirectory
  rw [mem_seen_iff lists noOutput sees] at isFile isDirectory
  obtain isFile | ⟨_, notDirectory⟩ := isFile
  · obtain isDirectory | ⟨output, _⟩ := isDirectory
    · exact noClash front name other bytes renames isFile isDirectory
    · have last := congrArg List.getLast? output
      simp only [List.getLast?_append, List.getLast?_singleton, Option.some_or, Option.some.injEq] at last
      exact renamed_ne_outputDir renames last
  · contradiction

theorem exists_ends (target : Path Name → Path Name) (wellFormed : tree.WellFormed) :
    ∃ result, Ends target folder result := by
  have fresh : outputDir ∉ tree.names := by
    intro taken
    obtain ⟨content, member⟩ := mem_names_iff.mp taken
    exact noOutput _ _ member (List.mem_singleton_self _)
  have sees : (folder.set [outputDir] .directory).Lists (.dir outputDir .nil tree) := by
    intro path content
    rw [set_eq_some_of_free (outputDir_free lists noOutput), lists path content, mem_contents_dir]
    simp only [contents, List.not_mem_nil, and_false, exists_false, false_or]
    tauto
  have seenWellFormed : (Listing.dir outputDir .nil tree).WellFormed := ⟨fresh, trivial, wellFormed⟩
  exact ⟨_, .listed (makeOutput_eq lists noOutput) seenWellFormed sees⟩

/-- Without a clash a script creates the renamed sources under the output directory. -/
theorem ends_transferred (targets : ∀ fileD, target fileD = outputDir :: fileD) (noClash : NoClash tree)
    {result : Option (Folder Name)} (ends : Ends target folder result) :
    ∃ after, result = some after ∧ (after.under [outputDir]).Lists (transferred tree) := by
  have made_eq := makeOutput_eq lists noOutput
  cases ends with
  | noOutput failed =>
    rw [made_eq] at failed
    contradiction
  | @listed made seen ready wellFormed sees =>
    rw [made_eq, Option.some.injEq] at ready
    subst ready
    rw [listFilepath_eq targets]
    have madeExact : ∀ path content, folder.set [outputDir] .directory (outputDir :: path) = some content ↔
        path = [] ∧ content = .directory := by
      intro path content
      rw [set_eq_some_of_free (outputDir_free lists noOutput), lists]
      simp only [List.cons_ne_nil, false_and, false_or, List.cons.injEq, true_and]
      refine or_iff_right fun member => ?_
      exact noOutput _ _ member List.mem_cons_self
    -- the output directory is empty
    have free : ∀ below content, (below, content) ∈ (transferred seen).contents →
        folder.set [outputDir] .directory ([outputDir] ++ below) = none := by
      intro below content member
      rw [Option.eq_none_iff_forall_ne_some]
      intro there found
      rw [((madeExact below there).mp found).1] at member
      exact nil_notMem_contents member
    obtain ⟨after, created, exact⟩ := createAll_placed
      (wellFormed_transferred wellFormed (noClash_seen lists noOutput sees noClash))
      ((madeExact [] _).mpr ⟨rfl, rfl⟩) free
    refine ⟨after, created, fun path content => ?_⟩
    have there : (outputDir :: path, content) ∈ placed [outputDir] (transferred seen) ↔
        (path, content) ∈ (transferred seen).contents := by
      rw [mem_placed]
      simp
    rw [under, List.singleton_append, exact, madeExact, there, mem_transferred_seen_iff lists noOutput sees]

/-- With a clash every run of a script fails. -/
theorem ends_none (targets : ∀ fileD, target fileD = outputDir :: fileD) (clash : ¬ NoClash tree)
    {result : Option (Folder Name)} (ends : Ends target folder result) : result = none := by
  cases ends with
  | noOutput => rfl
  | @listed made seen ready wellFormed sees =>
    rw [makeOutput_eq lists noOutput, Option.some.injEq] at ready
    subst ready
    simp only [NoClash, not_forall, not_not] at clash
    obtain ⟨front, name, other, bytes, renames, isFile, isDirectory⟩ := clash
    have outside := noOutput _ _ isDirectory
    have outsideFront : outputDir ∉ front := fun inner => outside (List.mem_append_left _ inner)
    rw [listFilepath_eq targets]
    -- both are to be created
    have directory := (mem_transferred_seen_iff lists noOutput sees .directory).mpr
      (directory_mem_transferred.mpr ⟨isDirectory, outside⟩)
    have file := (mem_transferred_seen_iff lists noOutput sees (.file bytes)).mpr
      (file_mem_transferred.mpr ⟨outsideFront, name, renames, isFile⟩)
    exact createAll_clash (mem_placed.mpr ⟨_, rfl, directory⟩) (mem_placed.mpr ⟨_, rfl, file⟩)

end

end KernelLearning.SourceTransfer
