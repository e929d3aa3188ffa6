import Mathlib.Data.List.Basic

/-!
# Listed directory trees

A directory as a recursive listing shows it: its entries in some order, each
subdirectory with its own listing.  Names are of any type.
-/

namespace KernelLearning.FileTrees

variable {Name : Type}

/-- Below a directory, from the outside in; `[]` is the directory itself. -/
abbrev Path (Name : Type) : Type := List Name

inductive Content where
  | directory
  | file (bytes : List UInt8)
  deriving DecidableEq

/-- The entries of a directory, the first one and the rest. -/
inductive Listing (Name : Type) where
  | nil
  | file (name : Name) (bytes : List UInt8) (rest : Listing Name)
  | dir (name : Name) (inside rest : Listing Name)

namespace Listing

/-- The names of the entries. -/
def names : Listing Name → List Name
  | .nil => []
  | .file name _ rest => name :: rest.names
  | .dir name _ rest => name :: rest.names

/-- All that is below the directory, a directory before what it contains. -/
def contents : Listing Name → List (Path Name × Content)
  | .nil => []
  | .file name bytes rest => ([name], .file bytes) :: rest.contents
  | .dir name inside rest =>
    ([name], .directory) :: (inside.contents.map fun entry => (name :: entry.1, entry.2)) ++ rest.contents

/-- No directory has two entries of one name. -/
def WellFormed : Listing Name → Prop
  | .nil => True
  | .file name _ rest => name ∉ rest.names ∧ rest.WellFormed
  | .dir name inside rest => name ∉ rest.names ∧ inside.WellFormed ∧ rest.WellFormed

variable {listing : Listing Name} {path : Path Name} {content : Content} {name : Name}

/-! ## What a listing contains -/

theorem mem_contents_file {bytes : List UInt8} {rest : Listing Name} :
    (path, content) ∈ (Listing.file name bytes rest).contents ↔
      path = [name] ∧ content = .file bytes ∨ (path, content) ∈ rest.contents := by
  simp only [contents, List.mem_cons, Prod.mk.injEq]

theorem mem_contents_dir {inside rest : Listing Name} :
    (path, content) ∈ (Listing.dir name inside rest).contents ↔
      path = [name] ∧ content = .directory ∨
        (∃ below, path = name :: below ∧ (below, content) ∈ inside.contents) ∨
        (path, content) ∈ rest.contents := by
  simp only [contents, List.cons_append, List.mem_cons, List.mem_append, List.mem_map, Prod.mk.injEq,
    Prod.exists]
  refine or_congr_right (or_congr_left ?_)
  constructor
  · rintro ⟨below, _, member, rfl, rfl⟩
    exact ⟨below, rfl, member⟩
  · rintro ⟨below, rfl, member⟩
    exact ⟨below, content, member, rfl, rfl⟩

/-- The directory itself is not below it. -/
theorem nil_notMem_contents : (([] : Path Name), content) ∉ listing.contents := by
  induction listing with
  | nil => simp [contents]
  | file name bytes rest inductionHypothesis => simp [mem_contents_file, inductionHypothesis]
  | dir name inside rest _ inductionHypothesis => simp [mem_contents_dir, inductionHypothesis]

/-- A path begins with the name of an entry. -/
theorem head_mem_names {below : Path Name} (member : (name :: below, content) ∈ listing.contents) :
    name ∈ listing.names := by
  induction listing with
  | nil => simp [contents] at member
  | file other bytes rest inductionHypothesis =>
    rw [mem_contents_file] at member
    rw [names, List.mem_cons]
    cases member with
    | inl here => exact .inl (List.cons.inj here.1).1
    | inr later => exact .inr (inductionHypothesis later)
  | dir other inside rest _ inductionHypothesis =>
    rw [mem_contents_dir] at member
    rw [names, List.mem_cons]
    obtain here | ⟨_, inside, _⟩ | later := member
    · exact .inl (List.cons.inj here.1).1
    · exact .inl (List.cons.inj inside).1
    · exact .inr (inductionHypothesis later)

theorem mem_names_iff : name ∈ listing.names ↔ ∃ content, ([name], content) ∈ listing.contents := by
  constructor
  · induction listing with
    | nil => simp [names]
    | file other bytes rest inductionHypothesis =>
      simp only [names, List.mem_cons, mem_contents_file]
      rintro (rfl | later)
      · exact ⟨_, .inl ⟨rfl, rfl⟩⟩
      · obtain ⟨content, member⟩ := inductionHypothesis later
        exact ⟨content, .inr member⟩
    | dir other inside rest _ inductionHypothesis =>
      simp only [names, List.mem_cons, mem_contents_dir]
      rintro (rfl | later)
      · exact ⟨_, .inl ⟨rfl, rfl⟩⟩
      · obtain ⟨content, member⟩ := inductionHypothesis later
        exact ⟨content, .inr (.inr member)⟩
  · rintro ⟨content, member⟩
    exact head_mem_names member

/-- In a well-formed listing a path is one thing only. -/
theorem contents_unique (wellFormed : listing.WellFormed) {other : Content}
    (first : (path, content) ∈ listing.contents) (second : (path, other) ∈ listing.contents) :
    content = other := by
  induction listing generalizing path with
  | nil => simp [contents] at first
  | file name bytes rest inductionHypothesis =>
    rw [mem_contents_file] at first second
    obtain ⟨fresh, wellFormed⟩ := wellFormed
    -- both are the first entry, or both are in the rest
    obtain ⟨rfl, rfl⟩ | first := first
    · obtain ⟨_, rfl⟩ | second := second
      · rfl
      · exact absurd (head_mem_names second) fresh
    · obtain ⟨rfl, _⟩ | second := second
      · exact absurd (head_mem_names first) fresh
      · exact inductionHypothesis wellFormed first second
  | dir name inside rest insideHypothesis inductionHypothesis =>
    rw [mem_contents_dir] at first second
    obtain ⟨fresh, insideWellFormed, wellFormed⟩ := wellFormed
    obtain ⟨rfl, rfl⟩ | ⟨below, rfl, first⟩ | first := first
    · obtain ⟨_, rfl⟩ | ⟨below, same, second⟩ | second := second
      · rfl
      · rw [(List.cons.inj same).2.symm] at second
        exact absurd second nil_notMem_contents
      · exact absurd (head_mem_names second) fresh
    · obtain ⟨same, _⟩ | ⟨below', same, second⟩ | second := second
      · rw [(List.cons.inj same).2] at first
        exact absurd first nil_notMem_contents
      · rw [← (List.cons.inj same).2] at second
        exact insideHypothesis insideWellFormed first second
      · exact absurd (head_mem_names second) fresh
    · obtain ⟨rfl, _⟩ | ⟨below, rfl, _⟩ | second := second
      · exact absurd (head_mem_names first) fresh
      · exact absurd (head_mem_names first) fresh
      · exact inductionHypothesis wellFormed first second

/-! ## Elsewhere -/

/-- The contents of a listing, placed under a path. -/
def placed (base : Path Name) (listing : Listing Name) : List (Path Name × Content) :=
  listing.contents.map fun entry => (base ++ entry.1, entry.2)

theorem placed_dir (base : Path Name) (name : Name) (inside rest : Listing Name) :
    placed base (.dir name inside rest) =
      (base ++ [name], .directory) :: (placed (base ++ [name]) inside ++ placed base rest) := by
  simp [placed, contents]

theorem placed_file (base : Path Name) (name : Name) (bytes : List UInt8) (rest : Listing Name) :
    placed base (.file name bytes rest) = (base ++ [name], .file bytes) :: placed base rest := rfl

theorem mem_placed {base : Path Name} :
    (path, content) ∈ placed base listing ↔
      ∃ below, path = base ++ below ∧ (below, content) ∈ listing.contents := by
  simp only [placed, List.mem_map, Prod.exists, Prod.mk.injEq]
  constructor
  · rintro ⟨below, _, member, rfl, rfl⟩
    exact ⟨below, rfl, member⟩
  · rintro ⟨below, rfl, member⟩
    exact ⟨below, content, member, rfl, rfl⟩

end Listing

end KernelLearning.FileTrees
