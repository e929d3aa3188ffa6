import KernelLearning.FileTrees.Listing

/-!
# Folders

The directories and files below a directory, by their paths.  What creates a
directory or a file fails as the calls of an operating system do; a file that is
there is written over.  A whole listing is created in a folder if nothing is in
its way, and a path that is to be a directory and a file at once cannot be created
in any order.
-/

namespace KernelLearning.FileTrees

variable {Name : Type} [DecidableEq Name]

abbrev Folder (Name : Type) : Type := Path Name → Option Content

namespace Folder

def set (folder : Folder Name) (path : Path Name) (content : Content) : Folder Name :=
  fun other => if other = path then some content else folder other

def mkdir (folder : Folder Name) (path : Path Name) : Option (Folder Name) :=
  if folder path = none ∧ folder path.dropLast = some .directory then some (folder.set path .directory)
  else none

def writeFile (folder : Folder Name) (path : Path Name) (bytes : List UInt8) : Option (Folder Name) :=
  if folder path ≠ some .directory ∧ folder path.dropLast = some .directory then
    some (folder.set path (.file bytes))
  else none

def create (folder : Folder Name) (entry : Path Name × Content) : Option (Folder Name) :=
  match entry.2 with
  | .directory => folder.mkdir entry.1
  | .file bytes => folder.writeFile entry.1 bytes

/-- One after the other. -/
def createAll (folder : Folder Name) (entries : List (Path Name × Content)) : Option (Folder Name) :=
  entries.foldlM create folder

/-- What is below a path. -/
def under (folder : Folder Name) (path : Path Name) : Folder Name := fun below => folder (path ++ below)

/-- The listing shows all that is in the folder. -/
def Lists (folder : Folder Name) (listing : Listing Name) : Prop :=
  ∀ path content, folder path = some content ↔
    path = [] ∧ content = .directory ∨ (path, content) ∈ listing.contents

/-- The folder that a listing shows. -/
def ofListing (listing : Listing Name) : Folder Name := fun path =>
  if path = [] then some .directory
  else (listing.contents.find? fun entry => entry.1 = path).map Prod.snd

open Listing

variable {folder after : Folder Name} {path : Path Name} {content : Content} {entry : Path Name × Content}
  {entries : List (Path Name × Content)} {listing : Listing Name}

theorem lists_ofListing (wellFormed : listing.WellFormed) : (ofListing listing).Lists listing := by
  intro path content
  by_cases root : path = []
  · simp only [ofListing, root, if_true, Option.some.injEq, true_and, nil_notMem_contents, or_false]
    exact eq_comm
  · simp only [ofListing, root, if_false, false_and, false_or, Option.map_eq_some_iff]
    constructor
    · rintro ⟨entry, found, rfl⟩
      have here := List.find?_some found
      simp only [decide_eq_true_eq] at here
      rw [← here]
      exact List.mem_of_find?_eq_some found
    · intro member
      -- the path is found, and it is one thing only
      cases found : listing.contents.find? fun entry => entry.1 = path with
      | none =>
        have := List.find?_eq_none.mp found _ member
        simp at this
      | some entry =>
        have here := List.find?_some found
        simp only [decide_eq_true_eq] at here
        have first : (path, entry.2) ∈ listing.contents := by
          rw [← here]
          exact List.mem_of_find?_eq_some found
        exact ⟨entry, rfl, contents_unique wellFormed first member⟩

/-! ## Creating one entry -/

theorem create_eq_some (created : folder.create entry = some after) :
    after = folder.set entry.1 entry.2 ∧
      ∀ there, folder entry.1 = some there → (there = .directory ↔ entry.2 = .directory) := by
  obtain ⟨path, content⟩ := entry
  cases content with
  | directory =>
    simp only [create, mkdir, Option.ite_none_right_eq_some, Option.some.injEq] at created
    obtain ⟨⟨free, _⟩, rfl⟩ := created
    exact ⟨rfl, by simp [free]⟩
  | file bytes =>
    simp only [create, writeFile, Option.ite_none_right_eq_some, Option.some.injEq] at created
    obtain ⟨⟨noDirectory, _⟩, rfl⟩ := created
    refine ⟨rfl, fun there found => ?_⟩
    rw [found, ne_eq, Option.some.injEq] at noDirectory
    simp [noDirectory]

theorem create_free (entry : Path Name × Content) (free : folder entry.1 = none)
    (parent : folder entry.1.dropLast = some .directory) :
    folder.create entry = some (folder.set entry.1 entry.2) := by
  obtain ⟨path, content⟩ := entry
  cases content with
  | directory => exact if_pos ⟨free, parent⟩
  | file bytes =>
    refine if_pos ⟨?_, parent⟩
    rw [show folder path = none from free]
    simp

theorem set_eq_some_of_free (free : folder path = none) {other : Path Name} {there : Content} :
    folder.set path content other = some there ↔
      folder other = some there ∨ other = path ∧ there = content := by
  simp only [set]
  split
  · rename_i same
    simp [same, free, eq_comm]
  · rename_i different
    simp [different]

/-! ## Creating many -/

theorem createAll_append (entries later : List (Path Name × Content)) (folder : Folder Name) :
    folder.createAll (entries ++ later) = (folder.createAll entries).bind fun after => after.createAll later :=
  List.foldlM_append

theorem createAll_cons (entry : Path Name × Content) (entries : List (Path Name × Content)) (folder : Folder Name) :
    folder.createAll (entry :: entries) = (folder.create entry).bind fun after => after.createAll entries := rfl

/-- A directory stays one, and so does a file. -/
theorem createAll_kept (created : folder.createAll entries = some after) (found : folder path = some content) :
    ∃ there, after path = some there ∧ (there = .directory ↔ content = .directory) := by
  induction entries generalizing folder content with
  | nil =>
    cases created
    exact ⟨content, found, Iff.rfl⟩
  | cons entry entries inductionHypothesis =>
    rw [createAll_cons] at created
    obtain ⟨next, now, later⟩ := Option.bind_eq_some_iff.mp created
    obtain ⟨rfl, kind⟩ := create_eq_some now
    by_cases here : path = entry.1
    · have placed : folder.set entry.1 entry.2 path = some entry.2 := if_pos here
      obtain ⟨there, final, same⟩ := inductionHypothesis later placed
      rw [here] at found
      exact ⟨there, final, same.trans (kind content found).symm⟩
    · have kept : folder.set entry.1 entry.2 path = some content := (if_neg here).trans found
      exact inductionHypothesis later kept

theorem createAll_created (created : folder.createAll entries = some after) (member : (path, content) ∈ entries) :
    ∃ there, after path = some there ∧ (there = .directory ↔ content = .directory) := by
  obtain ⟨before, behind, rfl⟩ := List.append_of_mem member
  rw [createAll_append] at created
  obtain ⟨middle, _, created⟩ := Option.bind_eq_some_iff.mp created
  rw [createAll_cons] at created
  obtain ⟨next, now, later⟩ := Option.bind_eq_some_iff.mp created
  obtain ⟨rfl, _⟩ := create_eq_some now
  exact createAll_kept later (if_pos rfl)

/-- No path becomes a directory and a file. -/
theorem createAll_clash {bytes : List UInt8} (directory : (path, .directory) ∈ entries)
    (file : (path, .file bytes) ∈ entries) : folder.createAll entries = none := by
  cases created : folder.createAll entries with
  | none => rfl
  | some after =>
    obtain ⟨there, found, asDirectory⟩ := createAll_created created directory
    obtain ⟨other, again, asFile⟩ := createAll_created created file
    rw [found, Option.some.injEq] at again
    subst again
    exact absurd (asFile.mp (asDirectory.mpr rfl)) Content.noConfusion

/-! ## Creating a listing -/

/-- A well-formed listing is created in a directory where nothing is in its way: the folder has it
in addition. -/
theorem createAll_placed {base : Path Name} (wellFormed : listing.WellFormed)
    (directory : folder base = some .directory)
    (free : ∀ below content, (below, content) ∈ listing.contents → folder (base ++ below) = none) :
    ∃ after, folder.createAll (placed base listing) = some after ∧
      ∀ path content, after path = some content ↔
        folder path = some content ∨ (path, content) ∈ placed base listing := by
  induction listing generalizing folder base with
  | nil => exact ⟨folder, rfl, by simp [placed, Listing.contents]⟩
  | file name bytes rest inductionHypothesis =>
    obtain ⟨fresh, wellFormed⟩ := wellFormed
    have vacant := free [name] _ (mem_contents_file.mpr (.inl ⟨rfl, rfl⟩))
    have now := create_free (base ++ [name], .file bytes) vacant (by simpa using directory)
    have other : ∀ below content, (below, content) ∈ rest.contents →
        folder.set (base ++ [name]) (.file bytes) (base ++ below) = none := by
      intro below content member
      rw [← free below content (mem_contents_file.mpr (.inr member))]
      refine if_neg fun same => fresh ?_
      rw [List.append_cancel_left same] at member
      exact head_mem_names member
    have there : folder.set (base ++ [name]) (.file bytes) base = some .directory :=
      (if_neg (by simp)).trans directory
    obtain ⟨after, later, exact⟩ := inductionHypothesis wellFormed there other
    refine ⟨after, ?_, fun path content => ?_⟩
    · rw [placed_file, createAll_cons, now]
      exact later
    · rw [exact, set_eq_some_of_free vacant, placed_file, List.mem_cons, Prod.mk.injEq, or_assoc]
  | dir name inside rest insideHypothesis inductionHypothesis =>
    obtain ⟨fresh, insideWellFormed, wellFormed⟩ := wellFormed
    have vacant := free [name] _ (mem_contents_dir.mpr (.inl ⟨rfl, rfl⟩))
    have now := create_free (base ++ [name], .directory) vacant (by simpa using directory)
    -- inside the new directory
    have insideFree : ∀ below content, (below, content) ∈ inside.contents →
        folder.set (base ++ [name]) .directory (base ++ [name] ++ below) = none := by
      intro below content member
      have notRoot : below ≠ [] := by
        rintro rfl
        exact nil_notMem_contents member
      refine (if_neg (by simpa using notRoot)).trans ?_
      rw [List.append_assoc]
      exact free (name :: below) content (mem_contents_dir.mpr (.inr (.inl ⟨below, rfl, member⟩)))
    obtain ⟨middle, insideDone, insideExact⟩ := insideHypothesis insideWellFormed (if_pos rfl) insideFree
    have middleExact : ∀ path content, middle path = some content ↔
        folder path = some content ∨ (path = base ++ [name] ∧ content = .directory) ∨
          (path, content) ∈ placed (base ++ [name]) inside := by
      intro path content
      rw [insideExact, set_eq_some_of_free vacant, or_assoc]
    -- beside it, where the names are others
    have other : ∀ below content, (below, content) ∈ rest.contents → middle (base ++ below) = none := by
      intro below content member
      have unset := free below content (mem_contents_dir.mpr (.inr (.inr member)))
      rw [Option.eq_none_iff_forall_ne_some]
      intro there found
      rw [middleExact, unset, mem_placed] at found
      obtain nothing | ⟨same, _⟩ | ⟨deeper, same, _⟩ := found
      · contradiction
      · rw [List.append_cancel_left same] at member
        exact fresh (head_mem_names member)
      · rw [List.append_assoc] at same
        rw [List.append_cancel_left same] at member
        exact fresh (head_mem_names member)
    obtain ⟨after, later, exact⟩ := inductionHypothesis wellFormed ((middleExact base _).mpr (.inl directory)) other
    refine ⟨after, ?_, fun path content => ?_⟩
    · rw [placed_dir, createAll_cons, now, Option.bind_some, createAll_append, insideDone]
      exact later
    · rw [exact, middleExact, placed_dir, List.mem_cons, Prod.mk.injEq, List.mem_append, or_assoc, or_assoc]

end Folder

end KernelLearning.FileTrees
