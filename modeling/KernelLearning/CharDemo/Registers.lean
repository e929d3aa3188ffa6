import KernelLearning.CharDemo.Driver
import KernelLearning.Interaction.Executions
import Mathlib.Logic.Function.Basic

/-!
# Files as registers

Beside the driver runs what it is for: a register of 4 bytes for each file.  The
driver is as good as the registers as long as no call goes past the end of its
`pdata`; but a write that succeeds never returns a number.
-/

namespace KernelLearning.CharDemo

open Bytes Interaction

/-! ## Which files are open -/

theorem lookup_cons_eq (file : Nat × Nat) (files : List (Nat × Nat)) (filp : Nat) :
    (file :: files).lookup filp = if filp = file.1 then some file.2 else files.lookup filp := by
  rw [List.lookup_cons]
  by_cases same : filp = file.1
  · simp [same]
  · simp [same, beq_false_of_ne same]

theorem lookup_filter_ne (files : List (Nat × Nat)) (filp other : Nat) :
    (files.filter (·.1 ≠ filp)).lookup other = if other = filp then none else files.lookup other := by
  induction files with
  | nil => simp
  | cons file files inductionHypothesis =>
    by_cases gone : file.1 = filp
    · rw [List.filter_cons_of_neg (by simpa using gone), inductionHypothesis, lookup_cons_eq, gone]
      split <;> rfl
    · rw [List.filter_cons_of_pos (by simpa using gone), lookup_cons_eq, lookup_cons_eq, inductionHypothesis]
      by_cases here : other = file.1
      · rw [if_pos here, if_pos here, if_neg (by rw [here]; exact gone)]
      · rw [if_neg here, if_neg here]

namespace Driver

theorem privateData_open (driver : Driver) (filp pdata other : Nat) :
    (driver.charDemoOpen filp pdata).1.privateData other =
      if other = filp then some pdata else driver.privateData other :=
  lookup_cons_eq (filp, pdata) driver.files other

theorem privateData_release (driver : Driver) (filp other : Nat) :
    (driver.charDemoRelease filp).1.privateData other =
      if other = filp then none else driver.privateData other :=
  lookup_filter_ne driver.files filp other

theorem mem_files {driver : Driver} {filp pdata : Nat} (isOpen : driver.privateData filp = some pdata) :
    (filp, pdata) ∈ driver.files := by
  obtain ⟨before, after, split, _⟩ := List.lookup_eq_some_iff.mp isOpen
  simp [split]

/-- The bytes of the `pdata` of a file. -/
def data (driver : Driver) (filp : Nat) : Option (List UInt8) :=
  (driver.privateData filp).map fun pdata => driver.memory.load pdata sizeofPdata

theorem data_eq_of {driver driver' : Driver} {filp : Nat}
    (same : driver'.privateData filp = driver.privateData filp)
    (loads : ∀ pdata, driver.privateData filp = some pdata →
      driver'.memory.load pdata sizeofPdata = driver.memory.load pdata sizeofPdata) :
    driver'.data filp = driver.data filp := by
  rw [data, data, same]
  cases isOpen : driver.privateData filp with
  | none => rfl
  | some pdata => exact congrArg some (loads pdata isOpen)

theorem length_storedBytes (buf : List UInt8) (notCopied : Nat) : (storedBytes buf notCopied).length = buf.length := by
  simp only [storedBytes, List.length_append, List.length_take, List.length_replicate]
  omega

end Driver

open Driver

/-! ## The registers -/

/-- What was stored through each file last. -/
abbrev Registers : Type := Nat → List UInt8

def Registers.after (registers : Registers) : Call → Registers
  | .open filp (some _) => Function.update registers filp initialNum
  | .write filp buf notCopied =>
    Function.update registers filp (overlay (registers filp) 0 (storedBytes buf notCopied))
  | .open _ none | .release _ | .read _ _ _ => registers

/-- The driver, and beside it the registers. -/
structure Observed where
  driver : Driver
  registers : Registers

/-- No file is open. -/
def Observed.init (memory : Addresses UInt8) : Observed := ⟨⟨memory, []⟩, fun _ => []⟩

def step (observed : Observed) (call : Call) : Option Observed :=
  (respond observed.driver call).map fun response => ⟨response.1, observed.registers.after call⟩

def Call.filp : Call → Nat
  | .open filp _ | .release filp | .read filp _ _ | .write filp _ _ => filp

/-- What a call should do, when it leaves `driver'` and has `result`. -/
structure Served (observed : Observed) (call : Call) (driver' : Driver) (result : Result) : Prop where
  inside : ∀ address ∈ result.touched, ∃ pdata, observed.driver.privateData call.filp = some pdata ∧
    pdata ≤ address ∧ address < pdata + sizeofPdata
  reads : ∀ filp len, call = .read filp len 0 → len ≤ sizeofPdata →
    result.returned = some (len : Int) ∧ result.copied = (observed.registers filp).take len
  writes : ∀ filp buf, call = .write filp buf 0 → buf.length ≤ sizeofPdata →
    result.returned = some (buf.length : Int)
  others : ∀ other, other ≠ call.filp → driver'.data other = observed.driver.data other

/-- The call is served as it should be. -/
def Right (observed : Observed) (call : Call) : Prop :=
  ∀ driver' result, respond observed.driver call = some (driver', result) → Served observed call driver' result

/-- A read copies at most 4 bytes, and a write has at most 4 and does not succeed. -/
def Fits (_ : Observed) : Call → Prop
  | .open _ _ | .release _ => True
  | .read _ len notCopied => len - notCopied ≤ sizeofPdata
  | .write _ buf notCopied => buf.length ≤ sizeofPdata ∧ notCopied ≠ 0

/-! ## The calls one by one -/

/-- The calls that the kernel makes, and what comes of them. -/
inductive Responded (driver : Driver) : Call → Driver × Result → Prop where
  | noMemory (filp : Nat) : Responded driver (.open filp none) (driver, ⟨some (-ENOMEM), [], []⟩)
  | opened {filp pdata : Nat} (free : driver.Free pdata) :
      Responded driver (.open filp (some pdata)) (driver.charDemoOpen filp pdata)
  | released (filp : Nat) : Responded driver (.release filp) (driver.charDemoRelease filp)
  | read {filp pdata : Nat} (isOpen : driver.privateData filp = some pdata) (len notCopied : Nat) :
      Responded driver (.read filp len notCopied) (driver.charDemoRead pdata len notCopied)
  | written {filp pdata : Nat} (isOpen : driver.privateData filp = some pdata) (buf : List UInt8) (notCopied : Nat) :
      Responded driver (.write filp buf notCopied) (driver.charDemoWrite pdata buf notCopied)

theorem responded {driver : Driver} {call : Call} {response : Driver × Result}
    (made : respond driver call = some response) : Responded driver call response := by
  cases call with
  | «open» filp allocated =>
    simp only [respond] at made
    split at made
    · cases allocated with
      | none =>
        cases made
        exact .noMemory filp
      | some pdata =>
        simp only at made
        split at made
        · rename_i free
          cases made
          exact .opened free
        · cases made
    · cases made
  | release filp =>
    obtain ⟨pdata, _, rfl⟩ := Option.map_eq_some_iff.mp made
    exact .released filp
  | read filp len notCopied =>
    obtain ⟨pdata, isOpen, rfl⟩ := Option.map_eq_some_iff.mp made
    exact .read isOpen len notCopied
  | write filp buf notCopied =>
    obtain ⟨pdata, isOpen, rfl⟩ := Option.map_eq_some_iff.mp made
    exact .written isOpen buf notCopied

namespace Observed

/-! ## The invariant -/

/-- The files have memory of their own, and hold what their registers hold. -/
structure Private (observed : Observed) : Prop where
  apart : ∀ filp other pdata pdata', filp ≠ other → observed.driver.privateData filp = some pdata →
    observed.driver.privateData other = some pdata' →
    pdata + sizeofPdata ≤ pdata' ∨ pdata' + sizeofPdata ≤ pdata
  stored : ∀ filp pdata, observed.driver.privateData filp = some pdata →
    observed.driver.memory.load pdata sizeofPdata = observed.registers filp

theorem init_private (memory : Addresses UInt8) : (Observed.init memory).Private := by
  have closed : ∀ filp, (Observed.init memory).driver.privateData filp = none := fun _ => rfl
  constructor
  · intro filp other pdata pdata' _ isOpen
    rw [closed] at isOpen
    cases isOpen
  · intro filp pdata isOpen
    rw [closed] at isOpen
    cases isOpen

/-- A file that is opened gets memory of its own. -/
theorem open_others {driver : Driver} {pdata other place : Nat} (free : driver.Free pdata)
    (otherOpen : driver.privateData other = some place) :
    (driver.memory.store pdata initialNum).load place sizeofPdata = driver.memory.load place sizeofPdata := by
  refine driver.memory.load_store_apart ?_
  have apart : pdata + sizeofPdata ≤ place ∨ place + sizeofPdata ≤ pdata := free (other, place) (mem_files otherOpen)
  exact apart.symm

theorem open_private {observed : Observed} (kept : observed.Private) {filp pdata : Nat}
    (free : observed.driver.Free pdata) :
    Private ⟨(observed.driver.charDemoOpen filp pdata).1, Function.update observed.registers filp initialNum⟩ := by
  have elsewhere : ∀ other pdata', observed.driver.privateData other = some pdata' →
      pdata + sizeofPdata ≤ pdata' ∨ pdata' + sizeofPdata ≤ pdata :=
    fun other pdata' isOpen => free (other, pdata') (mem_files isOpen)
  -- two files that are both old have been apart before
  constructor
  · intro first second place place' different isOpen isOpen'
    simp only [privateData_open] at isOpen isOpen'
    split at isOpen
    · rename_i here
      cases isOpen
      rw [if_neg (by rw [← here]; exact different.symm)] at isOpen'
      exact elsewhere second place' isOpen'
    · split at isOpen'
      · cases isOpen'
        exact (elsewhere first place isOpen).symm
      · exact kept.apart first second place place' different isOpen isOpen'
  · intro other place isOpen
    simp only [privateData_open] at isOpen
    split at isOpen
    · rename_i here
      cases isOpen
      simp only [here, Function.update_self]
      exact (observed.driver.memory.load_store pdata sizeofPdata initialNum).trans rfl
    · rename_i elsewhere
      simp only [Function.update_of_ne elsewhere, ← kept.stored other place isOpen]
      exact open_others free isOpen

theorem release_private {observed : Observed} (kept : observed.Private) (filp : Nat) :
    Private ⟨(observed.driver.charDemoRelease filp).1, observed.registers⟩ := by
  have before : ∀ other pdata, (observed.driver.charDemoRelease filp).1.privateData other = some pdata →
      observed.driver.privateData other = some pdata := by
    intro other pdata isOpen
    rw [privateData_release] at isOpen
    split at isOpen
    · cases isOpen
    · exact isOpen
  constructor
  · intro first second place place' different isOpen isOpen'
    exact kept.apart first second place place' different (before first place isOpen) (before second place' isOpen')
  · intro other place isOpen
    exact kept.stored other place (before other place isOpen)

/-- What is stored through one file stays out of the others. -/
theorem write_others {observed : Observed} (kept : observed.Private) {filp pdata : Nat}
    (isOpen : observed.driver.privateData filp = some pdata) {buf : List UInt8} (notCopied : Nat)
    (short : buf.length ≤ sizeofPdata) {other place : Nat} (different : other ≠ filp)
    (otherOpen : observed.driver.privateData other = some place) :
    (observed.driver.memory.store pdata (storedBytes buf notCopied)).load place sizeofPdata =
      observed.driver.memory.load place sizeofPdata := by
  refine observed.driver.memory.load_store_apart ?_
  rw [length_storedBytes]
  have apart := kept.apart filp other pdata place different.symm isOpen otherOpen
  omega

theorem write_private {observed : Observed} (kept : observed.Private) {filp pdata : Nat}
    (isOpen : observed.driver.privateData filp = some pdata) {buf : List UInt8} (notCopied : Nat)
    (short : buf.length ≤ sizeofPdata) :
    Private ⟨(observed.driver.charDemoWrite pdata buf notCopied).1,
      Function.update observed.registers filp
        (overlay (observed.registers filp) 0 (storedBytes buf notCopied))⟩ := by
  constructor
  · exact kept.apart
  · intro other place otherOpen
    by_cases here : other = filp
    · subst here
      obtain rfl := Option.some.inj (isOpen.symm.trans otherOpen)
      simp only [Function.update_self, ← kept.stored other pdata isOpen]
      exact observed.driver.memory.load_store pdata sizeofPdata _
    · simp only [Function.update_of_ne here, ← kept.stored other place otherOpen]
      exact write_others kept isOpen notCopied short here otherOpen

theorem step_private {observed observed' : Observed} {call : Call} (kept : observed.Private)
    (fits : Fits observed call) (taken : step observed call = some observed') : observed'.Private := by
  obtain ⟨response, made, rfl⟩ := Option.map_eq_some_iff.mp taken
  cases responded made with
  | noMemory filp => exact kept
  | opened free => exact open_private kept free
  | released filp => exact release_private kept filp
  | read isOpen len notCopied => exact kept
  | written isOpen buf notCopied => exact write_private kept isOpen notCopied fits.1

/-- With the files in their places, what fits is served as it should be. -/
theorem served_of_fits {observed : Observed} {call : Call} {driver' : Driver} {result : Result}
    (kept : observed.Private) (fits : Fits observed call)
    (made : Responded observed.driver call (driver', result)) : Served observed call driver' result := by
  -- open and release copy nothing
  cases made with
  | noMemory filp =>
    exact ⟨fun _ member => absurd member List.not_mem_nil, fun _ _ other => Call.noConfusion other,
      fun _ _ other => Call.noConfusion other, fun _ _ => rfl⟩
  | @opened filp pdata free =>
    refine ⟨fun _ member => absurd member List.not_mem_nil, fun _ _ other => Call.noConfusion other,
      fun _ _ other => Call.noConfusion other, ?_⟩
    intro other different
    exact data_eq_of ((privateData_open observed.driver filp pdata other).trans (if_neg different))
      fun _ otherOpen => open_others free otherOpen
  | released filp =>
    refine ⟨fun _ member => absurd member List.not_mem_nil, fun _ _ other => Call.noConfusion other,
      fun _ _ other => Call.noConfusion other, ?_⟩
    intro other different
    exact data_eq_of ((privateData_release observed.driver filp other).trans (if_neg different)) fun _ _ => rfl
  | @read filp pdata isOpen len notCopied =>
    refine ⟨?_, ?_, fun _ _ other => Call.noConfusion other, fun _ _ => rfl⟩
    · intro address member
      have place := List.mem_range'_1.mp member
      have short : len - notCopied ≤ sizeofPdata := fits
      exact ⟨pdata, isOpen, place.1, by omega⟩
    · intro _ _ same short
      cases same
      refine ⟨rfl, ?_⟩
      rw [← kept.stored filp pdata isOpen, observed.driver.memory.take_load pdata short]
      rfl
  | @written filp pdata isOpen buf notCopied =>
    obtain ⟨short, fails⟩ := fits
    refine ⟨?_, fun _ _ other => Call.noConfusion other, ?_, ?_⟩
    · intro address member
      have place := List.mem_range'_1.mp member
      exact ⟨pdata, isOpen, place.1, by omega⟩
    · intro _ _ same _
      cases same
      exact absurd rfl fails
    · intro other different
      exact data_eq_of rfl fun _ otherOpen => write_others kept isOpen notCopied short different otherOpen

/-- What is served as it should be fits. -/
theorem fits_of_served {observed : Observed} {call : Call} {driver' : Driver} {result : Result}
    (made : Responded observed.driver call (driver', result)) (served : Served observed call driver' result) :
    Fits observed call := by
  -- the first address past the end is touched as soon as there are more than 4 bytes
  have within : ∀ filp pdata count, call.filp = filp → observed.driver.privateData filp = some pdata →
      result.touched = List.range' pdata count → count ≤ sizeofPdata := by
    intro filp pdata count own isOpen touched
    by_contra beyond
    have member : pdata + sizeofPdata ∈ result.touched := by
      rw [touched]
      exact List.mem_range'_1.mpr (by omega)
    obtain ⟨pdata', isOpen', _, before⟩ := served.inside _ member
    rw [own] at isOpen'
    obtain rfl := Option.some.inj (isOpen.symm.trans isOpen')
    omega
  cases made with
  | noMemory filp => trivial
  | opened free => trivial
  | released filp => trivial
  | @read filp pdata isOpen len notCopied => exact within filp pdata _ rfl isOpen rfl
  | @written filp pdata isOpen buf notCopied =>
    have short := within filp pdata _ rfl isOpen rfl
    refine ⟨short, ?_⟩
    rintro rfl
    have returned := served.writes filp buf rfl short
    cases returned

theorem right_iff {observed observed' : Observed} {call : Call} (kept : observed.Private)
    (taken : step observed call = some observed') : Right observed call ↔ Fits observed call := by
  obtain ⟨response, made, rfl⟩ := Option.map_eq_some_iff.mp taken
  constructor
  · intro right
    exact fits_of_served (responded made) (right _ _ made)
  · intro fits driver' result made'
    exact served_of_fits kept fits (responded made')

/-- In every run of calls: each call is served as a private register would serve it, exactly if no
call copies more than 4 bytes and no write succeeds. -/
theorem private_registers_iff {memory : Addresses UInt8} {past : List (Observed × Call)} {last : Observed}
    (execution : Execution step (Observed.init memory) past last) :
    Throughout Right past ↔ Throughout Fits past :=
  execution.throughout_iff Private (init_private memory) (fun _ _ _ => step_private)
    fun _ _ _ kept taken => right_iff kept taken

/-- A file is opened, and its number is read. -/
theorem private_registers_read : ∃ past last, Execution step (Observed.init fun _ => 0) past last ∧
    past.map Prod.snd = [.open 3 (some 64), .read 3 4 0] ∧ Throughout Right past := by
  have begun : Execution step (Observed.init fun _ => 0) [] (Observed.init fun _ => 0) := .start
  have execution := (begun.followedBy (.open 3 (some 64)) rfl).followedBy (.read 3 4 0) rfl
  refine ⟨_, _, execution, rfl, (private_registers_iff execution).mpr ?_⟩
  rw [throughout_append, throughout_append, throughout_singleton, throughout_singleton]
  exact ⟨⟨throughout_nil _, trivial⟩, Nat.le_refl 4⟩

/-- The user program writes its number, and the call returns nothing. -/
theorem not_private_registers : ∃ past last, Execution step (Observed.init fun _ => 0) past last ∧
    past.map Prod.snd = [.open 3 (some 64), .read 3 4 0, .write 3 [0xaa, 0, 0, 0] 0] ∧
      ¬ Throughout Right past := by
  have begun : Execution step (Observed.init fun _ => 0) [] (Observed.init fun _ => 0) := .start
  have execution := ((begun.followedBy (.open 3 (some 64)) rfl).followedBy (.read 3 4 0) rfl).followedBy
    (.write 3 [0xaa, 0, 0, 0] 0) rfl
  refine ⟨_, _, execution, rfl, ?_⟩
  intro right
  have served := right _ (List.mem_append_right _ (List.mem_singleton_self _)) _ _ rfl
  have returned := served.writes 3 [0xaa, 0, 0, 0] rfl (by decide)
  cases returned

end Observed

end KernelLearning.CharDemo
