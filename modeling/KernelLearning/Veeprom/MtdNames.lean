import KernelLearning.CSemantics.Numeral
import KernelLearning.Veeprom.Library

/-!
# The partition that get_mtdnum_partname finds

As many characters are compared as the name in the `name` file has, so every prefix of
the wanted name matches, and the first match in the order of the directory counts.  A
name file of 128 bytes or more leaves `mtd_name_buf` without a NUL.
-/

namespace KernelLearning.Veeprom

open KernelLearning.CSemantics

/-! ## The number of an entry -/

/-- `mtd%d` of the number that the kernel gave the device, an `int`, and the name of its partition. -/
structure Partition where
  number : Nat
  readOnly : Bool
  name : List Byte
  isInt : number < 2 ^ 31
  isText : IsText name

/-- `mtdN` or `mtdNro`, with the name and a newline in the name file. -/
def Partition.entry (p : Partition) : MtdEntry where
  name := ascii "mtd" ++ (decimalNat p.number ++ if p.readOnly then ascii "ro" else [])
  nameFile := some (p.name ++ [10])

theorem mtdNumber_skip {byte : Byte} (other : isDigit byte = false) (rest mtdNumTmp : List Byte) :
    mtdNumber (byte :: rest) mtdNumTmp = mtdNumber rest mtdNumTmp := by
  rw [mtdNumber, other, if_neg Bool.false_ne_true]

theorem mtdNumber_text {text : List Byte} (noDigits : text.any isDigit = false)
    (rest mtdNumTmp : List Byte) : mtdNumber (text ++ rest) mtdNumTmp = mtdNumber rest mtdNumTmp := by
  induction text with
  | nil => rfl
  | cons byte text inductionHypothesis =>
    rw [List.any_cons, Bool.or_eq_false_iff] at noDigits
    rw [List.cons_append, mtdNumber_skip noDigits.1]
    exact inductionHypothesis noDigits.2

theorem mtdNumber_numeral {digits rest : List Byte} (numeral : IsNumeral digits)
    (stops : rest.takeWhile isDigit = []) (mtdNumTmp : List Byte) :
    mtdNumber (digits ++ rest) mtdNumTmp = mtdNumber rest ((decimal (strtol (digits ++ rest))).take 15) := by
  obtain ⟨nonempty, all⟩ := numeral
  have kept : rest.dropWhile isDigit = rest := by
    have whole : rest.takeWhile isDigit ++ rest.dropWhile isDigit = rest := List.takeWhile_append_dropWhile
    rwa [stops, List.nil_append] at whole
  cases digits with
  | nil => exact absurd rfl nonempty
  | cons head tail =>
    have behind : (tail ++ rest).dropWhile isDigit = rest := by
      rw [List.dropWhile_append_of_pos fun byte member => all byte (List.mem_cons_of_mem head member), kept]
    rw [List.cons_append, mtdNumber, if_pos (all head List.mem_cons_self), behind]

/-- The number that is read from the name of an entry is the one it was made of. -/
theorem atoi_mtdNumber (p : Partition) : atoi (mtdNumber p.entry.name []) = p.number := by
  have stops : (if p.readOnly then ascii "ro" else []).takeWhile isDigit = [] := by
    cases p.readOnly <;> decide
  have noDigits : (if p.readOnly then ascii "ro" else []).any isDigit = false := by
    cases p.readOnly <;> decide
  have numeral := isNumeral_decimalNat p.number
  have bound := p.isInt
  have short : (decimalNat p.number).length ≤ 15 := length_decimalNat_le (by decide) (by omega)
  have read : mtdNumber p.entry.name [] = decimalNat p.number := by
    rw [Partition.entry, mtdNumber_text (by decide), mtdNumber_numeral numeral stops,
      strtol_numeral_append numeral stops, digitsValue_decimalNat, min_eq_left (by omega), decimal_natCast,
      List.take_of_length_le short]
    have whole := mtdNumber_text noDigits [] (decimalNat p.number)
    rw [List.append_nil] at whole
    rw [whole, mtdNumber]
  rw [read, atoi, strtol_numeral numeral, digitsValue_decimalNat, min_eq_left (by omega),
    toInt32_of_isInt32 ⟨by omega, by omega⟩]

theorem Partition.entry_inj {p q : Partition} (same : p.entry = q.entry) : p.name = q.name ∧ p.number = q.number := by
  constructor
  · have files : some (p.name ++ [10]) = some (q.name ++ [10]) := congrArg MtdEntry.nameFile same
    rw [Option.some.injEq] at files
    exact List.append_cancel_right files
  · have numbers : (p.number : Int) = q.number := by
      rw [← atoi_mtdNumber p, ← atoi_mtdNumber q, same]
    exact Int.ofNat.inj numbers

/-! ## The walk over the directory -/

/-- `mtd_name_buf` after `memset` and `fread`. -/
def mtdNameBuf (contents : List Byte) : List Byte :=
  contents.take 128 ++ List.replicate (128 - contents.length) 0

/-- `strlen(mtd_name_buf) - 1`, a `size_t`. -/
def compareCount (mtdName : List Byte) : Nat := if mtdName.length = 0 then 2 ^ 64 - 1 else mtdName.length - 1

/-- `get_mtdnum_partname` with the end of `mtd_name_buf` in view: `none` if `strlen` or `strncmp` runs past it. -/
def getMtdnumPartnameWithin (targetNm : List Byte) : List MtdEntry → Option Int
  | [] => some (-1)
  | entry :: rest =>
    match entry.nameFile with
    | none => getMtdnumPartnameWithin targetNm rest
    | some contents =>
      (stringAt (mtdNameBuf contents)).bind fun mtdName =>
        if strncmpEq (compareCount mtdName) mtdName targetNm then some (atoi (mtdNumber entry.name []))
        else getMtdnumPartnameWithin targetNm rest

variable {target : List Byte} {listing order rest : List MtdEntry} {p q : Partition}

theorem within_nameless {entry : MtdEntry} (file : entry.nameFile = none) (rest : List MtdEntry) :
    getMtdnumPartnameWithin target (entry :: rest) = getMtdnumPartnameWithin target rest := by
  rw [getMtdnumPartnameWithin, file]

theorem within_file {entry : MtdEntry} {contents : List Byte} (file : entry.nameFile = some contents)
    (rest : List MtdEntry) :
    getMtdnumPartnameWithin target (entry :: rest) =
      (stringAt (mtdNameBuf contents)).bind fun mtdName =>
        if strncmpEq (compareCount mtdName) mtdName target then some (atoi (mtdNumber entry.name []))
        else getMtdnumPartnameWithin target rest := by
  rw [getMtdnumPartnameWithin, file]

theorem takeWhile_mtdNameBuf (contents : List Byte) :
    (mtdNameBuf contents).takeWhile (· ≠ 0) = (contents.take 128).takeWhile (· ≠ 0) := by
  have zeros : (List.replicate (128 - contents.length) (0 : Byte)).takeWhile (· ≠ 0) = [] := by
    cases 128 - contents.length <;> rfl
  rw [mtdNameBuf, List.takeWhile_append, zeros, List.append_nil]
  split
  · rename_i whole
    exact ((List.takeWhile_prefix _).eq_of_length whole).symm
  · rfl

/-- As long as the buffer is not left, this is the function of the library. -/
theorem getMtdnumPartname_of_within {number : Int} (found : getMtdnumPartnameWithin target listing = some number) :
    getMtdnumPartname target listing = number := by
  induction listing with
  | nil => exact Option.some.inj found
  | cons entry rest inductionHypothesis =>
    rw [getMtdnumPartname]
    cases file : entry.nameFile with
    | none =>
      rw [within_nameless file] at found
      exact inductionHypothesis found
    | some contents =>
      rw [within_file file] at found
      obtain ⟨mtdName, read, after⟩ := Option.bind_eq_some_iff.mp found
      have name : (contents.take 128).takeWhile (· ≠ 0) = mtdName := by
        rw [← takeWhile_mtdNameBuf, takeWhile_of_stringAt read]
      simp only [name]
      by_cases equal : strncmpEq (compareCount mtdName) mtdName target = true
      · rw [if_pos equal, Option.some.injEq] at after
        rw [← after]
        exact if_pos equal
      · rw [if_neg equal] at after
        rw [← inductionHypothesis after]
        exact if_neg equal

/-- A name that is not too long is compared as far as it goes. -/
theorem within_partition (short : p.name.length < 127) (rest : List MtdEntry) :
    getMtdnumPartnameWithin target (p.entry :: rest) =
      if p.name <+: target then some (p.number : Int) else getMtdnumPartnameWithin target rest := by
  have line : IsText (p.name ++ [10]) := p.isText.append (by decide)
  have length : (p.name ++ [10]).length = p.name.length + 1 := List.length_append
  have read : stringAt (mtdNameBuf (p.name ++ [10])) = some (p.name ++ [10]) := by
    obtain ⟨zeros, count⟩ : ∃ zeros, 128 - (p.name ++ [10]).length = zeros + 1 := ⟨126 - p.name.length, by omega⟩
    rw [mtdNameBuf, List.take_of_length_le (by omega), count, List.replicate_succ]
    exact stringAt_append_zero line _
  have count : compareCount (p.name ++ [10]) = p.name.length := by
    rw [compareCount, length, if_neg (Nat.succ_ne_zero _), Nat.add_sub_cancel]
  rw [within_file rfl, read, Option.bind_some, count, atoi_mtdNumber]
  simp only [strncmpEq_length_iff p.isText]

/-- The name of a partition that is too long has no end in the buffer. -/
theorem within_long (long : 127 ≤ p.name.length) (rest : List MtdEntry) :
    getMtdnumPartnameWithin target (p.entry :: rest) = none := by
  have line : IsText (p.name ++ [10]) := p.isText.append (by decide)
  have full : 128 - (p.name ++ [10]).length = 0 := by
    rw [List.length_append, List.length_singleton]
    omega
  have read : stringAt (mtdNameBuf (p.name ++ [10])) = none := by
    rw [mtdNameBuf, full, List.replicate_zero, List.append_nil]
    exact stringAt_eq_none fun byte member => line byte (List.mem_of_mem_take member)
  rw [within_file rfl, read, Option.bind_none]

/-! ## Selecting by name -/

/-- Entries of the directory: those of partitions, each number with a name of its own, and others that have no
name file, as `.` and `..` do not. -/
structure Listing (listing : List MtdEntry) : Prop where
  entries : ∀ entry ∈ listing, entry.nameFile = none ∨ ∃ p : Partition, entry = p.entry
  names : ∀ p q : Partition, p.entry ∈ listing → q.entry ∈ listing → (p.name = q.name ↔ p.number = q.number)

/-- In whatever order the entries come, the function returns one result: the number of the partition with the name,
or -1 if there is none. -/
def SelectsByName (target : List Byte) (listing : List MtdEntry) : Prop :=
  ∃ result, (∀ order : List MtdEntry, order.Perm listing → getMtdnumPartnameWithin target order = some result) ∧
    (∀ number : Nat, result = number ↔ ∃ p : Partition, p.entry ∈ listing ∧ p.name = target ∧ p.number = number) ∧
    ((∀ p : Partition, p.entry ∈ listing → p.name ≠ target) → result = -1)

/-- The name fits into the buffer, and it is not a shorter beginning of the wanted one. -/
def Tells (target : List Byte) (p : Partition) : Prop :=
  p.name.length < 127 ∧ (p.name <+: target → p.name = target)

/-- What the function should return: the number of the partition with the name, or -1 without one. -/
inductive Answer (target : List Byte) (listing : List MtdEntry) : Int → Prop where
  | partition (p : Partition) (member : p.entry ∈ listing) (named : p.name = target) : Answer target listing p.number
  | missing (none : ∀ p : Partition, p.entry ∈ listing → p.name ≠ target) : Answer target listing (-1)

variable {result result' : Int}

theorem Answer.perm (answer : Answer target order result) (permuted : order.Perm listing) :
    Answer target listing result := by
  cases answer with
  | partition p member named => exact .partition p (permuted.subset member) named
  | missing none => exact .missing fun p member => none p (permuted.symm.subset member)

theorem Answer.skip {entry : MtdEntry} (answer : Answer target rest result)
    (other : ∀ p : Partition, p.entry = entry → p.name ≠ target) : Answer target (entry :: rest) result := by
  cases answer with
  | partition p member named => exact .partition p (List.mem_cons_of_mem entry member) named
  | missing none =>
    refine .missing fun p member => ?_
    rcases List.mem_cons.mp member with here | behind
    · exact other p here
    · exact none p behind

theorem Answer.unique (isListing : Listing listing) (answer : Answer target listing result)
    (answer' : Answer target listing result') : result = result' := by
  cases answer with
  | partition p member named =>
    cases answer' with
    | partition q member' named' => rw [(isListing.names p q member member').mp (named.trans named'.symm)]
    | missing none => exact absurd named (none p member)
  | missing none =>
    cases answer' with
    | partition q member' named' => exact absurd named' (none q member')
    | missing _ => rfl

/-- With names that tell the partitions apart, the first match is the partition with the name. -/
theorem within_tells (entries : ∀ entry ∈ order, entry.nameFile = none ∨ ∃ p : Partition, entry = p.entry)
    (tells : ∀ p : Partition, p.entry ∈ order → Tells target p) :
    ∃ result, getMtdnumPartnameWithin target order = some result ∧ Answer target order result := by
  induction order with
  | nil => exact ⟨-1, rfl, .missing fun _ member => absurd member List.not_mem_nil⟩
  | cons entry order inductionHypothesis =>
    obtain ⟨result, found, answer⟩ := inductionHypothesis
      (fun other member => entries other (List.mem_cons_of_mem entry member))
      fun p member => tells p (List.mem_cons_of_mem entry member)
    rcases entries entry List.mem_cons_self with file | ⟨p, here⟩
    · refine ⟨result, by rw [within_nameless file, found], answer.skip fun p here => ?_⟩
      rw [← here] at file
      cases file
    · rw [here] at tells ⊢
      obtain ⟨short, whole⟩ := tells p List.mem_cons_self
      rw [within_partition short]
      by_cases front : p.name <+: target
      · exact ⟨p.number, if_pos front, .partition p List.mem_cons_self (whole front)⟩
      · refine ⟨result, by rw [if_neg front, found], answer.skip fun q same named => ?_⟩
        rw [(Partition.entry_inj same).1] at named
        exact front (by rw [named])

theorem SelectsByName.tells (selects : SelectsByName target listing) (isListing : Listing listing)
    (member : p.entry ∈ listing) : Tells target p := by
  obtain ⟨result, always, numbers, _⟩ := selects
  -- the entry can come first
  obtain ⟨front, back, split⟩ := List.append_of_mem member
  have found := always (p.entry :: (front ++ back)) (by rw [split]; exact List.perm_middle.symm)
  have short : p.name.length < 127 := by
    by_contra long
    rw [within_long (Nat.not_lt.mp long)] at found
    cases found
  refine ⟨short, fun beginning => ?_⟩
  rw [within_partition short, if_pos beginning, Option.some.injEq] at found
  obtain ⟨q, memberQ, named, number⟩ := (numbers p.number).mp found.symm
  rw [(isListing.names p q member memberQ).mpr number.symm, named]

/-- The partitions are selected by name, whatever the order is, exactly if each name tells its partition. -/
theorem get_mtdnum_partname_selects_iff (target : List Byte) (isListing : Listing listing) :
    SelectsByName target listing ↔ ∀ p : Partition, p.entry ∈ listing → Tells target p := by
  refine ⟨fun selects p member => selects.tells isListing member, fun tells => ?_⟩
  have any : ∀ order : List MtdEntry, order.Perm listing → ∃ result,
      getMtdnumPartnameWithin target order = some result ∧ Answer target listing result := by
    intro order permuted
    obtain ⟨result, found, answer⟩ := within_tells
      (fun entry member => isListing.entries entry (permuted.subset member))
      fun p member => tells p (permuted.subset member)
    exact ⟨result, found, answer.perm permuted⟩
  obtain ⟨result, _, answer⟩ := any listing (List.Perm.refl listing)
  refine ⟨result, fun order permuted => ?_, fun number => ?_, fun none => answer.unique isListing (.missing none)⟩
  · obtain ⟨result', found, answer'⟩ := any order permuted
    rw [found, answer.unique isListing answer']
  · constructor
    · intro same
      cases answer with
      | partition p member named => exact ⟨p, member, named, Int.ofNat.inj same⟩
      | missing none => cases same
    · intro found
      obtain ⟨p, member, named, number⟩ := found
      rw [← number]
      exact answer.unique isListing (.partition p member named)

def twoPartitions (first second : List Byte) (clean : IsText first) (clean' : IsText second) : List MtdEntry :=
  [Partition.entry ⟨0, false, first, by decide, clean⟩, Partition.entry ⟨1, false, second, by decide, clean'⟩]

theorem mem_twoPartitions {first second : List Byte} {clean : IsText first} {clean' : IsText second}
    (member : p.entry ∈ twoPartitions first second clean clean') :
    p.name = first ∧ p.number = 0 ∨ p.name = second ∧ p.number = 1 := by
  rcases List.mem_cons.mp member with here | rest
  · exact .inl (Partition.entry_inj here)
  · exact .inr (Partition.entry_inj (List.mem_singleton.mp rest))

theorem listing_twoPartitions {first second : List Byte} (clean : IsText first) (clean' : IsText second)
    (distinct : first ≠ second) : Listing (twoPartitions first second clean clean') where
  entries entry member := by
    rcases List.mem_cons.mp member with here | rest
    · exact .inr ⟨_, here⟩
    · exact .inr ⟨_, List.mem_singleton.mp rest⟩
  names p q memberP memberQ := by
    rcases mem_twoPartitions memberP with ⟨named, number⟩ | ⟨named, number⟩ <;>
      rcases mem_twoPartitions memberQ with ⟨named', number'⟩ | ⟨named', number'⟩ <;>
      rw [named, named', number, number']
    · exact iff_of_true rfl rfl
    · exact iff_of_false distinct Nat.zero_ne_one
    · exact iff_of_false distinct.symm Nat.one_ne_zero
    · exact iff_of_true rfl rfl

theorem get_mtdnum_partname_selects_iff_two :
    SelectsByName (ascii "boot") (twoPartitions (ascii "boot") (ascii "uboot") (by decide) (by decide)) := by
  refine (get_mtdnum_partname_selects_iff _ (listing_twoPartitions _ _ (by decide))).mpr fun p member => ?_
  rcases mem_twoPartitions member with ⟨named, _⟩ | ⟨named, _⟩
  · rw [Tells, named]
    decide
  · rw [Tells, named]
    decide

/-- A partition with a shorter name can come first. -/
theorem get_mtdnum_partname_selects_shorter :
    ¬ ∀ (target : List Byte) (listing : List MtdEntry), IsText target → Listing listing →
      SelectsByName target listing := by
  intro always
  have isListing : Listing (twoPartitions (ascii "bo") (ascii "boot") (by decide) (by decide)) :=
    listing_twoPartitions _ _ (by decide)
  have tells := (always (ascii "boot") _ (by decide) isListing).tells isListing List.mem_cons_self
  exact absurd (tells.2 (by decide)) (by decide)

end KernelLearning.Veeprom
