import KernelLearning.SourceTransfer.Transferred

/-!
# The round trip of the sources

Renaming twice is no renaming, so the two scripts give the sources back if the
first one does not fail.  In the second one no directory is in the way: a renamed
file gets the name of a file back.
-/

namespace KernelLearning.SourceTransfer

open FileTrees Folder Listing

variable {tree : Listing Name} {path : Path Name} {bytes : List UInt8} {name : Name}

/-! ## The statement -/

/-- The suffixes of source files. -/
def sourceSuffixes : List Name := [['.', 'c'], ['.', 'h'], ['.', 'c', 'c'], ['.', 'h', 'h']]

def IsSource (path : Path Name) : Prop := ∃ front name, path = front ++ [name] ∧ (splitext name).2 ∈ sourceSuffixes

/-- Where a script writes a source file, under the output directory. -/
def WrittenTo (source path : Path Name) : Prop :=
  ∃ front name other, source = front ++ [name] ∧ path = front ++ [other] ∧ renamed name = some other

/-- The files of the output directory are the sources of the tree, as they were. -/
def SameSources (tree : Listing Name) (final : Folder Name) : Prop :=
  ∀ path bytes, final (outputDir :: path) = some (.file bytes) ↔
    (path, .file bytes) ∈ tree.contents ∧ IsSource path

/-- The first script in the directory and the second one in the output directory of the first. -/
structure RoundTrip (tree : Listing Name) : Prop where
  apart : ∀ source source' path, WrittenTo source path → WrittenTo source' path → source = source'
  back : FileTransWindows (ofListing tree) fun copied =>
    FileTransUbuntu (copied.under [outputDir]) (SameSources tree)

/-! ## Both scripts -/

theorem windowsTarget_eq (fileD : Path Name) : windowsTarget fileD = outputDir :: fileD := rfl

theorem ubuntuTarget_eq (fileD : Path Name) : ubuntuTarget fileD = outputDir :: fileD := rfl

theorem exists_renamed_iff : (∃ other, renamed name = some other) ↔ (splitext name).2 ∈ sourceSuffixes := by
  have replaced : ∀ suffix, (∃ new, newSuffix suffix = some new) ↔ suffix ∈ sourceSuffixes := by
    intro suffix
    have firsts : sourceSuffixes = suffixPairs.map Prod.fst := rfl
    simp only [firsts, newSuffix_eq_some_iff, List.mem_map, Prod.exists, exists_and_right, exists_eq_right]
  simp only [← replaced, renamed, Option.map_eq_some_iff]
  constructor
  · rintro ⟨_, new, found, _⟩
    exact ⟨new, found⟩
  · rintro ⟨new, found⟩
    exact ⟨_, new, found, rfl⟩

theorem writtenTo_injective {source source' : Path Name} (first : WrittenTo source path)
    (second : WrittenTo source' path) : source = source' := by
  obtain ⟨front, name, other, rfl, rfl, renames⟩ := first
  obtain ⟨front', name', other', rfl, same, renames'⟩ := second
  obtain ⟨rfl, last⟩ := List.append_inj' same rfl
  rw [← (List.cons.inj last).1] at renames'
  rw [renamed_injective renames renames']

theorem noOutput_transferred (tree : Listing Name) : NoOutput (transferred tree) := by
  intro path content member
  cases content with
  | directory => exact (directory_mem_transferred.mp member).2
  | file bytes =>
    rcases List.eq_nil_or_concat path with rfl | ⟨front, other, rfl⟩
    · exact absurd member nil_notMem_contents
    rw [List.concat_eq_append] at member ⊢
    obtain ⟨outside, name, renames, _⟩ := file_mem_transferred.mp member
    rw [List.mem_append, List.mem_singleton, not_or]
    exact ⟨outside, (renamed_ne_outputDir renames).symm⟩

/-- The name that a renamed file gets back is that of a file. -/
theorem noClash_transferred (wellFormed : tree.WellFormed) : NoClash (transferred tree) := by
  intro front name other bytes renames isFile isDirectory
  obtain ⟨_, source, before, isSource⟩ := file_mem_transferred.mp isFile
  have back : source = other := Option.some.inj ((renamed_symm before).symm.trans renames)
  rw [back] at isSource
  have same := contents_unique wellFormed isSource (directory_mem_transferred.mp isDirectory).1
  contradiction

theorem file_mem_transferred_twice (noOutput : NoOutput tree) :
    (path, .file bytes) ∈ (transferred (transferred tree)).contents ↔
      (path, .file bytes) ∈ tree.contents ∧ IsSource path := by
  rcases List.eq_nil_or_concat path with rfl | ⟨front, name, rfl⟩
  · exact iff_of_false nil_notMem_contents fun source => nil_notMem_contents source.1
  rw [List.concat_eq_append, file_mem_transferred]
  simp only [file_mem_transferred]
  constructor
  · rintro ⟨_, other, renames, _, source, before, member⟩
    -- renamed twice, so it was a source
    have back : source = name := Option.some.inj ((renamed_symm before).symm.trans renames)
    rw [back] at member before
    exact ⟨member, front, name, rfl, exists_renamed_iff.mp ⟨other, before⟩⟩
  · rintro ⟨member, front', name', same, suffix⟩
    obtain ⟨rfl, last⟩ := List.append_inj' same rfl
    rw [← (List.cons.inj last).1] at suffix
    obtain ⟨other, renames⟩ := exists_renamed_iff.mpr suffix
    have outside : outputDir ∉ front := fun inner => noOutput _ _ member (List.mem_append_left _ inner)
    exact ⟨outside, other, renamed_symm renames, outside, name, renames, member⟩

/-- With a clash the first script fails. -/
theorem RoundTrip.noClash (roundTrip : RoundTrip tree) (wellFormed : tree.WellFormed) (noOutput : NoOutput tree) :
    NoClash tree := by
  by_contra clash
  obtain ⟨⟨result, ends⟩, succeeds⟩ := roundTrip.back
  obtain ⟨after, done, _⟩ := succeeds result ends
  rw [ends_none (lists_ofListing wellFormed) noOutput windowsTarget_eq clash ends] at done
  contradiction

/-- The round trip gives the sources back exactly if no directory of the tree has a source file and
a subdirectory of the name that the file is written under. -/
theorem roundTrip_iff_noClash (wellFormed : tree.WellFormed) (noOutput : NoOutput tree) :
    RoundTrip tree ↔ NoClash tree := by
  refine ⟨fun roundTrip => roundTrip.noClash wellFormed noOutput, fun noClash => ?_⟩
  refine ⟨fun _ _ _ => writtenTo_injective, ?_⟩
  have lists := lists_ofListing wellFormed
  refine ⟨exists_ends lists noOutput _ wellFormed, fun result ends => ?_⟩
  obtain ⟨copied, done, copies⟩ := ends_transferred lists noOutput windowsTarget_eq noClash ends
  refine ⟨copied, done, ?_⟩
  -- the second script sees the renamed sources
  have noOutput' := noOutput_transferred tree
  refine ⟨exists_ends copies noOutput' _ (wellFormed_transferred wellFormed noClash), fun result ends => ?_⟩
  obtain ⟨final, done, sources⟩ := ends_transferred copies noOutput' ubuntuTarget_eq
    (noClash_transferred wellFormed) ends
  refine ⟨final, done, fun path bytes => ?_⟩
  have exact := sources path (.file bytes)
  rw [file_mem_transferred_twice noOutput] at exact
  simpa only [under, List.singleton_append, reduceCtorEq, and_false, false_or] using exact

/-- `a.c` and `a.cc` beside each other. -/
theorem roundTrip_pair : RoundTrip (.file ['a', '.', 'c'] [1] (.file ['a', '.', 'c', 'c'] [2] .nil)) := by
  refine (roundTrip_iff_noClash (by simp [WellFormed, names]) ?_).mpr (by simp [NoClash, contents])
  intro path content member
  simp only [contents, List.mem_cons, List.not_mem_nil, or_false, Prod.mk.injEq] at member
  obtain ⟨rfl, _⟩ | ⟨rfl, _⟩ := member <;> decide

/-- A directory `a.cc` beside the file `a.c`. -/
theorem not_roundTrip_directory : ¬ RoundTrip (.file ['a', '.', 'c'] [0] (.dir ['a', '.', 'c', 'c'] .nil .nil)) := by
  intro roundTrip
  have noClash := roundTrip.noClash (by simp [WellFormed, names]) fun path content member => by
    simp only [contents, List.map_nil, List.append_nil, List.mem_cons, List.not_mem_nil, or_false,
      Prod.mk.injEq] at member
    obtain ⟨rfl, _⟩ | ⟨rfl, _⟩ := member <;> decide
  exact noClash [] ['a', '.', 'c'] ['a', '.', 'c', 'c'] [0] (by decide) (by simp [contents]) (by simp [contents])

end KernelLearning.SourceTransfer
