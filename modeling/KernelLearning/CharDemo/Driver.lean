import KernelLearning.Bytes.Addresses

/-!
# The char_demo driver

`char_demo_open`, `char_demo_release`, `char_demo_read` and `char_demo_write`, on the
memory of the kernel.  A call says what the kernel answers in it: where `kzalloc`
finds room, and how many of the bytes `copy_to_user` or `copy_from_user` could not
copy.
-/

namespace KernelLearning.CharDemo

open Bytes

/-- `sizeof(struct char_demo_pdata)` -/
def sizeofPdata : Nat := 4

/-- The bytes of an `int` of 0x91. -/
def initialNum : List UInt8 := [0x91, 0, 0, 0]

def ENOMEM : Int := 12
def EINVAL : Int := 22

/-- The memory, and the files that are open with their `private_data`. -/
structure Driver where
  memory : Addresses UInt8
  files : List (Nat × Nat)

/-- `filp->private_data`, `none` if the file is not open. -/
def Driver.privateData (driver : Driver) (filp : Nat) : Option Nat := driver.files.lookup filp

/-- `len` of a read is a number, that of a write the length of `buf`. -/
inductive Call where
  | open (filp : Nat) (allocated : Option Nat)
  | release (filp : Nat)
  | read (filp : Nat) (len : Nat) (notCopied : Nat)
  | write (filp : Nat) (buf : List UInt8) (notCopied : Nat)

/-- What a call returns, `none` if it comes to the end of the function without a `return`, the bytes
that the user gets, and the addresses that are copied from or to. -/
structure Result where
  returned : Option Int
  copied : List UInt8
  touched : List Nat

namespace Driver

/-- `kzalloc` gives memory that no open file has. -/
def Free (driver : Driver) (pdata : Nat) : Prop :=
  ∀ file ∈ driver.files, pdata + sizeofPdata ≤ file.2 ∨ file.2 + sizeofPdata ≤ pdata

instance (driver : Driver) (pdata : Nat) : Decidable (driver.Free pdata) := inferInstanceAs (Decidable (∀ _ ∈ _, _))

def charDemoOpen (driver : Driver) (filp pdata : Nat) : Driver × Result :=
  (⟨driver.memory.store pdata initialNum, (filp, pdata) :: driver.files⟩, ⟨some 0, [], []⟩)

def charDemoRelease (driver : Driver) (filp : Nat) : Driver × Result :=
  ({ driver with files := driver.files.filter (·.1 ≠ filp) }, ⟨some 0, [], []⟩)

def charDemoRead (driver : Driver) (pdata len notCopied : Nat) : Driver × Result :=
  (driver,
    { returned := some (if notCopied ≠ 0 then -EINVAL else len)
      copied := driver.memory.load pdata (len - notCopied)
      touched := List.range' pdata (len - notCopied) })

/-- What `copy_from_user` stores: zeros for the bytes that it could not copy. -/
def storedBytes (buf : List UInt8) (notCopied : Nat) : List UInt8 :=
  buf.take (buf.length - notCopied) ++ List.replicate (min notCopied buf.length) 0

def charDemoWrite (driver : Driver) (pdata : Nat) (buf : List UInt8) (notCopied : Nat) : Driver × Result :=
  ({ driver with memory := driver.memory.store pdata (storedBytes buf notCopied) },
    { returned := if notCopied ≠ 0 then some (-EINVAL) else none
      copied := []
      touched := List.range' pdata buf.length })

end Driver

/-- `none` if the kernel does not make the call: the file is not open, or is open already, or
`kzalloc` would give memory that is in use. -/
def respond (driver : Driver) : Call → Option (Driver × Result)
  | .open filp allocated =>
    if driver.privateData filp = none then
      match allocated with
      | none => some (driver, ⟨some (-ENOMEM), [], []⟩)
      | some pdata => if driver.Free pdata then some (driver.charDemoOpen filp pdata) else none
    else none
  | .release filp => (driver.privateData filp).map fun _ => driver.charDemoRelease filp
  | .read filp len notCopied => (driver.privateData filp).map fun pdata => driver.charDemoRead pdata len notCopied
  | .write filp buf notCopied => (driver.privateData filp).map fun pdata => driver.charDemoWrite pdata buf notCopied

end KernelLearning.CharDemo
