import KernelLearning.FileTrees.Folder

/-!
# The source transfer scripts

`file_trans_windows.py` and `file_trans_ubuntu.py`, run in a directory.  They
differ in how they put `output_dir` before a path.  A path is given by what follows
the `.` that it begins with.  An exception is `none`.
-/

namespace KernelLearning.SourceTransfer

open FileTrees

abbrev Name : Type := List Char

def outputDir : Name := ['o', 'u', 't', 'p', 'u', 't']

/-! ## Names -/

/-- A name up to its last dot, and from there on. -/
def splitLastDot : Name → Option (Name × Name)
  | [] => none
  | char :: rest =>
    match splitLastDot rest with
    | some (root, suffix) => some (char :: root, suffix)
    | none => if char = '.' then some ([], char :: rest) else none

/-- `os.path.splitext`.  The dots at the start of a name begin no suffix. -/
def splitext (name : Name) : Name × Name :=
  match splitLastDot name with
  | some (root, suffix) => if root.any (· ≠ '.') then (root, suffix) else (name, [])
  | none => (name, [])

/-- The suffix that a suffix is replaced with. -/
def newSuffix (suffix : Name) : Option Name :=
  if suffix = ['.', 'c'] then some ['.', 'c', 'c']
  else if suffix = ['.', 'h'] then some ['.', 'h', 'h']
  else if suffix = ['.', 'c', 'c'] then some ['.', 'c']
  else if suffix = ['.', 'h', 'h'] then some ['.', 'h']
  else none

/-- The name that a file is written under, `none` if it is not a source file. -/
def renamed (name : Name) : Option Name :=
  let (root, suffix) := splitext name
  (newSuffix suffix).map fun suffix => root ++ suffix

/-! ## Paths -/

/-- What Windows makes of a name with dots at its end. -/
def withoutTrailingDots (name : Name) : Name := (name.reverse.dropWhile (· = '.')).reverse

/-- `output_dir + file_d`: the prefix goes to the `.` that `file_d` begins with. -/
def windowsTarget (fileD : Path Name) : Path Name := withoutTrailingDots (outputDir ++ ['.']) :: fileD

/-- `output_dir + "/" + file_d`. -/
def ubuntuTarget (fileD : Path Name) : Path Name := outputDir :: fileD

/-! ## The scripts -/

section

variable (target : Path Name → Path Name)

def fileTrans (filePath : Path Name) (file : Name) (bytes : List UInt8) (folder : Folder Name) :
    Option (Folder Name) :=
  match renamed file with
  | none => some folder
  | some fileW => folder.writeFile (target (filePath ++ [fileW])) bytes

/-- The listing is what `os.listdir`, `os.path.isdir` and reading the files give. -/
def listFilepath (filePath : Path Name) : Listing Name → Folder Name → Option (Folder Name)
  | .nil, folder => some folder
  | .file file bytes rest, folder =>
    (fileTrans target filePath file bytes folder).bind fun folder => listFilepath filePath rest folder
  | .dir file inside rest, folder =>
    if file = outputDir then listFilepath filePath rest folder  -- ignore dir
    else
      (folder.mkdir (target (filePath ++ [file]))).bind fun folder =>
        (listFilepath (filePath ++ [file]) inside folder).bind fun folder => listFilepath filePath rest folder

/-- The output directory is there, or it is made. -/
def makeOutput (folder : Folder Name) : Option (Folder Name) :=
  if folder [outputDir] = none then folder.mkdir [outputDir] else some folder

/-- How a script can end in a folder, whatever order its entries are listed in. -/
inductive Ends (folder : Folder Name) : Option (Folder Name) → Prop where
  | noOutput (failed : makeOutput folder = none) : Ends folder none
  | listed {made : Folder Name} {seen : Listing Name} (ready : makeOutput folder = some made)
      (wellFormed : seen.WellFormed) (lists : made.Lists seen) :
      Ends folder (listFilepath target [] seen made)

/-- The script ends, and however it ends, it has not failed and its result is good. -/
def Succeeds (folder : Folder Name) (good : Folder Name → Prop) : Prop :=
  (∃ result, Ends target folder result) ∧
    ∀ result, Ends target folder result → ∃ after, result = some after ∧ good after

end

/-- `file_trans_windows.py`. -/
abbrev FileTransWindows (folder : Folder Name) (good : Folder Name → Prop) : Prop :=
  Succeeds windowsTarget folder good

/-- `file_trans_ubuntu.py`. -/
abbrev FileTransUbuntu (folder : Folder Name) (good : Folder Name → Prop) : Prop :=
  Succeeds ubuntuTarget folder good

/-! ## Renaming -/

theorem splitLastDot_suffix {root tail : Name} (noDot : '.' ∉ tail) :
    splitLastDot (root ++ '.' :: tail) = some (root, '.' :: tail) := by
  have plain : ∀ name : Name, '.' ∉ name → splitLastDot name = none := by
    intro name
    induction name with
    | nil => exact fun _ => rfl
    | cons char rest inductionHypothesis =>
      intro noDot
      rw [List.mem_cons, not_or] at noDot
      simp only [splitLastDot, inductionHypothesis noDot.2, if_neg (Ne.symm noDot.1)]
  induction root with
  | nil => simp only [List.nil_append, splitLastDot, plain tail noDot, if_true]
  | cons char root inductionHypothesis => simp only [List.cons_append, splitLastDot, inductionHypothesis]

theorem splitLastDot_append {name root suffix : Name} (split : splitLastDot name = some (root, suffix)) :
    name = root ++ suffix := by
  induction name generalizing root with
  | nil => simp [splitLastDot] at split
  | cons char rest inductionHypothesis =>
    simp only [splitLastDot] at split
    split at split
    · rename_i front extension found
      rw [Option.some.injEq, Prod.mk.injEq] at split
      obtain ⟨rfl, rfl⟩ := split
      rw [inductionHypothesis found, List.cons_append]
    · rw [Option.ite_none_right_eq_some, Option.some.injEq, Prod.mk.injEq] at split
      obtain ⟨_, rfl, rfl⟩ := split
      rfl

/-- The suffixes of source files, each with the one that replaces it. -/
def suffixPairs : List (Name × Name) :=
  [(['.', 'c'], ['.', 'c', 'c']), (['.', 'h'], ['.', 'h', 'h']), (['.', 'c', 'c'], ['.', 'c']),
    (['.', 'h', 'h'], ['.', 'h'])]

theorem newSuffix_eq_some_iff {suffix other : Name} :
    newSuffix suffix = some other ↔ (suffix, other) ∈ suffixPairs := by
  simp only [newSuffix, suffixPairs, List.mem_cons, List.not_mem_nil, or_false, Prod.mk.injEq]
  grind

/-- The suffixes that are replaced have one dot, at their start. -/
theorem newSuffix_eq_some {suffix other : Name} (new : newSuffix suffix = some other) :
    newSuffix other = some suffix ∧ ∃ tail, suffix = '.' :: tail ∧ '.' ∉ tail := by
  have pair := newSuffix_eq_some_iff.mp new
  simp only [suffixPairs, List.mem_cons, List.not_mem_nil, or_false, Prod.mk.injEq] at pair
  obtain ⟨rfl, rfl⟩ | ⟨rfl, rfl⟩ | ⟨rfl, rfl⟩ | ⟨rfl, rfl⟩ := pair <;> exact ⟨rfl, _, rfl, by decide⟩

theorem renamed_eq_some_iff {name other : Name} : renamed name = some other ↔
    ∃ root suffix new, newSuffix suffix = some new ∧ root.any (· ≠ '.') = true ∧
      name = root ++ suffix ∧ other = root ++ new := by
  simp only [renamed, Option.map_eq_some_iff]
  constructor
  · rintro ⟨new, found, rfl⟩
    simp only [splitext] at found ⊢
    split at found
    · rename_i root suffix split
      split at found
      · rename_i visible
        exact ⟨root, suffix, new, found, visible, splitLastDot_append split, by rw [if_pos visible]⟩
      · simp [newSuffix] at found
    · simp [newSuffix] at found
  · rintro ⟨root, suffix, new, found, visible, rfl, rfl⟩
    -- the suffix is found again, since it has no second dot
    obtain ⟨_, tail, rfl, noDot⟩ := newSuffix_eq_some found
    have split : splitext (root ++ '.' :: tail) = (root, '.' :: tail) := by
      simp only [splitext, splitLastDot_suffix noDot, visible, if_true]
    exact ⟨new, by rw [split]; exact found, by rw [split]⟩

/-- Renaming is undone by renaming. -/
theorem renamed_symm {name other : Name} (renames : renamed name = some other) : renamed other = some name := by
  obtain ⟨root, suffix, new, found, visible, rfl, rfl⟩ := renamed_eq_some_iff.mp renames
  exact renamed_eq_some_iff.mpr ⟨root, new, suffix, (newSuffix_eq_some found).1, visible, rfl, rfl⟩

theorem renamed_injective {name name' other : Name} (first : renamed name = some other)
    (second : renamed name' = some other) : name = name' := by
  have := (renamed_symm first).symm.trans (renamed_symm second)
  exact Option.some.inj this

/-- The output directory is no source file, and no source file is written under its name. -/
theorem renamed_ne_outputDir {name other : Name} (renames : renamed name = some other) : other ≠ outputDir := by
  rintro rfl
  have back := renamed_symm renames
  have none : renamed outputDir = none := by decide
  rw [none] at back
  contradiction

end KernelLearning.SourceTransfer
