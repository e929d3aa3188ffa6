import KernelLearning.Veeprom.Devices
import KernelLearning.Veeprom.Library

/-!
# The partition that veeprom_init finds in the GPT

A name is reduced to the low bytes of its first eight units before it is compared, so
other names can read like the wanted one.  The loop does not stop at a match: the last
entry that reads so is the one that is opened.
-/

namespace KernelLearning.Veeprom

open KernelLearning.CSemantics KernelLearning.Interaction KernelLearning.Interaction.Program

/-! ## Reading a name -/

/-- `str[label_count] & 0xff`. -/
def lowByte (unit : UInt16) : Byte := (unit &&& 0xff).toUInt8

/-- One character of `convert_partname`. -/
def translate (unit : UInt16) : Byte := if lowByte unit ≠ 0 ∧ ¬ isPrint (lowByte unit) then 33 else lowByte unit

/-- `veeprom` in UTF-16. -/
def veepromUnits : List UInt16 := [118, 101, 101, 112, 114, 111, 109]

namespace GptEntry

def name (entry : GptEntry) : List UInt16 := entry.partName.takeWhile (· ≠ 0)

/-- The low bytes of the first eight units are those of `veeprom` and a zero. -/
def ReadsVeeprom (entry : GptEntry) : Prop := (entry.partName.take 8).map lowByte = ascii "veeprom" ++ [0]

instance (entry : GptEntry) : Decidable entry.ReadsVeeprom := inferInstanceAs (Decidable (_ = _))

/-- The field holds as many units as its `GPT_NAME_LEN_BYTES` bytes. -/
def Fills (entry : GptEntry) : Prop := 2 * entry.partName.length = gptNameLenBytes

end GptEntry

variable {entry : GptEntry} {entries : List GptEntry} {host : Host} {i : Nat}

/-- A byte that only a unit with this low byte is translated to. -/
def isPlain (byte : Byte) : Bool := (byte = 0 || isPrint byte) && byte ≠ 33

theorem translate_eq_iff {unit : UInt16} {byte : Byte} (plain : isPlain byte = true) :
    translate unit = byte ↔ lowByte unit = byte := by
  rw [isPlain, Bool.and_eq_true, Bool.or_eq_true, decide_eq_true_eq, decide_eq_true_eq] at plain
  obtain ⟨clean, notMark⟩ := plain
  unfold translate
  split
  · rename_i replaced
    refine iff_of_false (Ne.symm notMark) fun same => ?_
    rw [same] at replaced
    cases clean with
    | inl zero => exact replaced.1 zero
    | inr printable => exact replaced.2 printable
  · exact Iff.rfl

theorem map_translate_eq_iff {units : List UInt16} {bytes : List Byte} (plain : bytes.all isPlain = true) :
    units.map translate = bytes ↔ units.map lowByte = bytes := by
  induction units generalizing bytes with
  | nil => exact Iff.rfl
  | cons unit units inductionHypothesis =>
    cases bytes with
    | nil => exact iff_of_false (List.cons_ne_nil _ _) (List.cons_ne_nil _ _)
    | cons byte bytes =>
      rw [List.all_cons, Bool.and_eq_true] at plain
      rw [List.map_cons, List.map_cons, List.cons.injEq, List.cons.injEq, translate_eq_iff plain.1,
        inductionHypothesis plain.2]

/-- With pointers of eight bytes a name is cut after eight characters. -/
theorem convertPartname_eq (fills : entry.Fills) :
    convertPartname 8 entry.partName = (entry.partName.take 8).map translate ++ List.replicate 64 0 := by
  have long : 8 ≤ entry.partName.length := by
    have : 2 * entry.partName.length = 72 := fills
    omega
  have units : (List.range 8).map (fun k => entry.partName.getD k 0) = entry.partName.take 8 := by
    refine List.ext_getElem (by rw [List.length_map, List.length_range, List.length_take, min_eq_left long]) ?_
    intro k inside inside'
    rw [List.length_map, List.length_range] at inside
    rw [List.getElem_map, List.getElem_range, List.getElem_take, List.getD_eq_getElem?_getD,
      List.getElem?_eq_getElem (Nat.lt_of_lt_of_le inside long), Option.getD_some]
  rw [← units, List.map_map]
  rfl

theorem strcmp_convertPartname_iff (fills : entry.Fills) :
    strcmp (convertPartname 8 entry.partName) (ascii "veeprom" ++ [0]) = some 0 ↔ entry.ReadsVeeprom := by
  have clean : IsText (ascii "veeprom") := by decide
  have plain : (ascii "veeprom" ++ [0]).all isPlain = true := by decide
  have long : ((entry.partName.take 8).map translate).length = (ascii "veeprom" ++ [0]).length := by
    have : 2 * entry.partName.length = 72 := fills
    rw [List.length_map, List.length_take, min_eq_left (by omega)]
    rfl
  rw [strcmp_text_iff clean, convertPartname_eq fills, List.prefix_iff_eq_take, ← long, List.take_left,
    eq_comm, map_translate_eq_iff plain]
  exact Iff.rfl

theorem readsVeeprom_of_name (fills : entry.Fills) (named : entry.name = veepromUnits) : entry.ReadsVeeprom := by
  have split : entry.partName = veepromUnits ++ entry.partName.dropWhile (· ≠ 0) := by
    rw [← named]
    exact List.takeWhile_append_dropWhile.symm
  cases behind : entry.partName.dropWhile (· ≠ 0) with
  | nil =>
    have whole : 2 * entry.partName.length = 72 := fills
    rw [split, behind] at whole
    exact absurd whole (by decide)
  | cons unit rest =>
    have zero : unit = 0 := by
      have stops := List.head?_dropWhile_not (fun unit : UInt16 => decide (unit ≠ 0)) entry.partName
      rw [behind] at stops
      simpa using stops
    unfold GptEntry.ReadsVeeprom
    rw [split, behind, zero]
    rfl

/-! ## The last entry that reads so -/

/-- The entry at the index reads like the wanted name, and none behind it does. -/
def LastReading (entries : List GptEntry) (i : Nat) : Prop :=
  ∃ front entry back, entries = front ++ entry :: back ∧ front.length = i ∧ entry.ReadsVeeprom ∧
    ∀ other ∈ back, ¬ other.ReadsVeeprom

theorem gptDevicePath_cons (fills : entry.Fills) (rest : List GptEntry) (path : DevicePath) :
    gptDevicePath 8 i (entry :: rest) path =
      gptDevicePath 8 (i + 1) rest (if entry.ReadsVeeprom then .mmcblk0p (i + 1) else path) := by
  rw [gptDevicePath]
  by_cases reads : entry.ReadsVeeprom
  · rw [if_pos ((strcmp_convertPartname_iff fills).mpr reads), if_pos reads]
  · rw [if_neg fun equal => reads ((strcmp_convertPartname_iff fills).mp equal), if_neg reads]

/-- The path stays as it is, or comes from the last entry that reads like the wanted name. -/
theorem gptDevicePath_eq (fills : ∀ entry ∈ entries, entry.Fills) (first : Nat) (path : DevicePath) :
    ((∀ entry ∈ entries, ¬ entry.ReadsVeeprom) ∧ gptDevicePath 8 first entries path = path) ∨
      ∃ i, LastReading entries i ∧ gptDevicePath 8 first entries path = .mmcblk0p (first + i + 1) := by
  induction entries generalizing first path with
  | nil => exact .inl ⟨fun _ member => absurd member List.not_mem_nil, rfl⟩
  | cons entry entries inductionHypothesis =>
    rw [gptDevicePath_cons (fills entry List.mem_cons_self)]
    have rest := inductionHypothesis (fun other member => fills other (List.mem_cons_of_mem entry member)) (first + 1)
      (if entry.ReadsVeeprom then .mmcblk0p (first + 1) else path)
    rcases rest with ⟨noneBehind, same⟩ | ⟨i, ⟨front, last, back, split, place, reads, noneBehind⟩, found⟩
    · by_cases reads : entry.ReadsVeeprom
      · rw [if_pos reads] at same ⊢
        exact .inr ⟨0, ⟨[], entry, entries, rfl, rfl, reads, noneBehind⟩, same⟩
      · rw [if_neg reads] at same ⊢
        refine .inl ⟨fun other member => ?_, same⟩
        rcases List.mem_cons.mp member with here | behind
        · rw [here]
          exact reads
        · exact noneBehind other behind
    · refine .inr ⟨i + 1, ⟨entry :: front, last, back, by rw [split]; rfl, by rw [← place]; rfl, reads, noneBehind⟩, ?_⟩
      rw [found]
      congr 1
      omega

/-- Where the last such entry stands decides, not what the path was. -/
theorem gptDevicePath_last {front back : List GptEntry} (fills : ∀ other ∈ front ++ entry :: back, other.Fills)
    (reads : entry.ReadsVeeprom) (noneBehind : ∀ other ∈ back, ¬ other.ReadsVeeprom) (first : Nat) (path : DevicePath) :
    gptDevicePath 8 first (front ++ entry :: back) path = .mmcblk0p (first + front.length + 1) := by
  induction front generalizing first path with
  | nil =>
    have fillsBack : ∀ other ∈ back, other.Fills := fun other member => fills other (List.mem_cons_of_mem entry member)
    rw [List.nil_append, gptDevicePath_cons (fills entry List.mem_cons_self), if_pos reads]
    rcases gptDevicePath_eq fillsBack (first + 1) (.mmcblk0p (first + 1)) with ⟨_, same⟩ | ⟨i, last, _⟩
    · exact same
    · obtain ⟨before, other, behind, split, _, readsToo, _⟩ := last
      have member : other ∈ back := by
        rw [split]
        exact List.mem_append_right before List.mem_cons_self
      exact absurd readsToo (noneBehind other member)
  | cons other front inductionHypothesis =>
    rw [List.cons_append, gptDevicePath_cons (fills other List.mem_cons_self),
      inductionHypothesis fun one member => fills one (List.mem_cons_of_mem other member)]
    congr 1
    rw [List.length_cons]
    omega

theorem LastReading.path (fills : ∀ entry ∈ entries, entry.Fills) (last : LastReading entries i) (path : DevicePath) :
    gptDevicePath 8 0 entries path = .mmcblk0p (i + 1) := by
  obtain ⟨front, entry, back, split, place, reads, noneBehind⟩ := last
  rw [split] at fills ⊢
  rw [gptDevicePath_last fills reads noneBehind, place, Nat.zero_add]

theorem lastReading_of_only (inside : i < entries.length)
    (only : ∀ j entry, entries[j]? = some entry → (entry.ReadsVeeprom ↔ j = i)) : LastReading entries i := by
  refine ⟨entries.take i, entries[i], entries.drop (i + 1), ?_, ?_, ?_, fun other member => ?_⟩
  · rw [← List.drop_eq_getElem_cons inside, List.take_append_drop]
  · rw [List.length_take, min_eq_left (Nat.le_of_lt inside)]
  · exact (only i _ (List.getElem?_eq_getElem inside)).mpr rfl
  · intro reads
    obtain ⟨k, found⟩ := List.mem_iff_getElem?.mp member
    rw [List.getElem?_drop] at found
    have := (only _ other found).mp reads
    omega

/-! ## The branch of veeprom_init -/

section Branch

variable {World : Type} {handler : Handler Sys Sys.Res World} {world : World} {statics : Statics}

/-- With all entries read the branch goes on with the path that the loop leaves. -/
theorem delivers_selectDevice_gpt (emmc : statics.bootmode = .emmc) (read : (handler .readGpt world).1 = some entries)
    (count : entries.length = gptEntryMax) :
    Delivers handler (selectDevice host statics) world fun result world' =>
      result = (true, { statics with devicePath := gptDevicePath host.sizeofPointer 0 entries statics.devicePath }) ∧
        world' = (handler .readGpt world).2 := by
  unfold selectDevice Call.readGpt
  simp only [emmc]
  rw [call_bind, delivers_call, read]
  simp only [done_bind, count]
  exact delivers_done.mpr ⟨rfl, rfl⟩

end Branch

/-- Whatever the path was and whatever else the calls answer, the branch selects `/dev/mmcblk0p` with the
number of the entry. -/
def SelectsEntry (host : Host) (entries : List GptEntry) (i : Nat) : Prop :=
  ∀ (World : Type) (handler : Handler Sys Sys.Res World) (world : World) (statics : Statics),
    statics.bootmode = .emmc → (handler .readGpt world).1 = some entries →
      Delivers handler (selectDevice host statics) world fun result _ =>
        result = (true, { statics with devicePath := .mmcblk0p (i + 1) })

/-- What the partition table is on a platform with pointers of eight bytes. -/
structure GptRead (host : Host) (entries : List GptEntry) : Prop where
  pointer : host.sizeofPointer = 8
  count : entries.length = gptEntryMax
  fills : ∀ entry ∈ entries, entry.Fills

def deviceWith (entries : List GptEntry) : Device where
  medium := .block
  path := .empty
  bytes := []
  updating := false
  mtd := none
  gpt := some entries

theorem selectsEntry_iff (gpt : GptRead host entries) : SelectsEntry host entries i ↔ LastReading entries i := by
  constructor
  · intro selects
    -- the table on a device, with no path before
    have selected := selects World answer (deviceWith entries, none) .initial rfl rfl
    obtain ⟨result, world', done, same⟩ := selected
    obtain ⟨expected, _⟩ := (delivers_selectDevice_gpt rfl rfl gpt.count).of_run done
    rw [same, gpt.pointer] at expected
    have paths : DevicePath.mmcblk0p (i + 1) = gptDevicePath 8 0 entries .empty :=
      congrArg (fun result : Bool × Statics => result.2.devicePath) expected
    rcases gptDevicePath_eq gpt.fills 0 .empty with ⟨_, none⟩ | ⟨j, last, found⟩
    · rw [none] at paths
      cases paths
    · rw [found, DevicePath.mmcblk0p.injEq] at paths
      rw [show i = j by omega]
      exact last
  · intro last World handler world statics emmc read
    refine (delivers_selectDevice_gpt emmc read gpt.count).mono fun result world' expected => ?_
    rw [expected.1, gpt.pointer, last.path gpt.fills]

/-- The lookup by name: only an entry with the name is selected, and so is the only one with it. -/
def LooksUpByName (host : Host) (entries : List GptEntry) : Prop :=
  (∀ i, SelectsEntry host entries i → ∃ entry, entries[i]? = some entry ∧ entry.name = veepromUnits) ∧
    ∀ i, i < entries.length → (∀ j entry, entries[j]? = some entry → (entry.name = veepromUnits ↔ j = i)) →
      SelectsEntry host entries i

theorem LastReading.getElem (last : LastReading entries i) :
    ∃ entry, entries[i]? = some entry ∧ entry.ReadsVeeprom := by
  obtain ⟨front, entry, back, split, place, reads, _⟩ := last
  refine ⟨entry, ?_, reads⟩
  rw [split, ← place, List.getElem?_append_right (Nat.le_refl _), Nat.sub_self]
  rfl

/-- The last entry that reads like the wanted name is selected, so the only one that does is.  If no entry
with another name reads so, this is the lookup by name. -/
theorem veeprom_init_selects_last (gpt : GptRead host entries) :
    (∀ i, SelectsEntry host entries i ↔ LastReading entries i) ∧
      (∀ i, i < entries.length → (∀ j entry, entries[j]? = some entry → (entry.ReadsVeeprom ↔ j = i)) →
        SelectsEntry host entries i) ∧
      ((∀ entry ∈ entries, entry.ReadsVeeprom → entry.name = veepromUnits) → LooksUpByName host entries) := by
  refine ⟨fun i => selectsEntry_iff gpt, fun i inside only => ?_, fun named => ⟨fun i selects => ?_, ?_⟩⟩
  · exact (selectsEntry_iff gpt).mpr (lastReading_of_only inside only)
  · obtain ⟨entry, found, reads⟩ := ((selectsEntry_iff gpt).mp selects).getElem
    exact ⟨entry, found, named entry (List.mem_of_getElem? found) reads⟩
  · intro i inside only
    refine (selectsEntry_iff gpt).mpr (lastReading_of_only inside fun j entry found => ?_)
    rw [← only j entry found]
    have member := List.mem_of_getElem? found
    exact ⟨named entry member, readsVeeprom_of_name (gpt.fills entry member)⟩

def host64 : Host where
  sizeofPointer := 8
  boardId := none
  bootMode := none

/-- A table of `GPT_ENTRY_MAX` entries that begins with two of these names and has no others. -/
def tableOf (first second : List UInt16) : List GptEntry :=
  [⟨first ++ List.replicate (36 - first.length) 0⟩, ⟨second ++ List.replicate (36 - second.length) 0⟩] ++
    List.replicate 126 ⟨List.replicate 36 0⟩

theorem gptRead_tableOf {first second : List UInt16} (short : first.length ≤ 36) (short' : second.length ≤ 36) :
    GptRead host64 (tableOf first second) where
  pointer := rfl
  count := by
    rw [tableOf, List.length_append, List.length_replicate]
    rfl
  fills entry member := by
    have padded : ∀ {units : List UInt16}, units.length ≤ 36 →
        GptEntry.Fills ⟨units ++ List.replicate (36 - units.length) 0⟩ := by
      intro units fits
      rw [GptEntry.Fills, List.length_append, List.length_replicate, Nat.add_sub_cancel' fits]
      rfl
    rcases List.mem_append.mp member with front | back
    · rcases List.mem_cons.mp front with here | rest
      · rw [here]
        exact padded short
      · rw [List.mem_singleton.mp rest]
        exact padded short'
    · rw [List.eq_of_mem_replicate back]
      rfl

/-- The wanted partition in front of one whose name goes on with `U+0100`. -/
theorem lastReading_tableOf : LastReading (tableOf veepromUnits (veepromUnits ++ [0x100])) 1 := by
  refine ⟨[⟨veepromUnits ++ List.replicate 29 0⟩], ⟨veepromUnits ++ [0x100] ++ List.replicate 28 0⟩, _, rfl, rfl,
    by decide, fun other member => ?_⟩
  rw [List.eq_of_mem_replicate member]
  decide

theorem veeprom_init_selects_last_tableOf : SelectsEntry host64 (tableOf veepromUnits (veepromUnits ++ [0x100])) 1 :=
  ((veeprom_init_selects_last (gptRead_tableOf (by decide) (by decide))).1 1).mpr lastReading_tableOf

/-- Not by name: the second partition is selected in this table. -/
theorem veeprom_init_selects_lookalike :
    ¬ ∀ (host : Host) (entries : List GptEntry), GptRead host entries → LooksUpByName host entries := by
  intro always
  have gpt : GptRead host64 (tableOf veepromUnits (veepromUnits ++ [0x100])) :=
    gptRead_tableOf (by decide) (by decide)
  obtain ⟨entry, found, named⟩ := (always host64 _ gpt).1 1 ((selectsEntry_iff gpt).mpr lastReading_tableOf)
  rw [tableOf, List.cons_append, List.getElem?_cons_succ, List.cons_append, List.getElem?_cons_zero,
    Option.some.injEq] at found
  rw [← found] at named
  exact absurd named (by decide)

end KernelLearning.Veeprom
