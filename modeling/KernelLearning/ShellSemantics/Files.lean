import KernelLearning.Bytes.Overlay
import Mathlib.Logic.Function.Basic

/-!
# Files and `dd`

A directory as the contents of its files, and the commands that copy bytes
between them.  A command that names a missing input file fails.
-/

namespace KernelLearning.ShellSemantics

open Bytes

/-- What each file holds, `none` where there is no such file. -/
abbrev Files (Name : Type) := Name → Option (List UInt8)

/-- What `dd` leaves in its output file: without `conv=notrunc` the file is first cut off at
`seek`; a gap below `seek` is filled with zeros. -/
def ddOutput (old : List UInt8) (seek : Nat) (bytes : List UInt8) (notrunc : Bool) : List UInt8 :=
  let kept := if notrunc then old else old.take seek
  overlay (kept ++ List.replicate (seek + bytes.length - kept.length) 0) seek bytes

variable {Name : Type} [DecidableEq Name]

def Files.write (files : Files Name) (name : Name) (bytes : List UInt8) : Files Name :=
  Function.update files name (some bytes)

/-- `dd if=source of=target bs=1 skip=.. seek=.. count=.. [conv=notrunc]` -/
def Files.dd (files : Files Name) (source target : Name) (skip seek count : Nat) (notrunc : Bool) :
    Option (Files Name) :=
  (files source).map fun bytes =>
    files.write target (ddOutput ((files target).getD []) seek (window bytes skip count) notrunc)

/-- `dd if=/dev/zero of=target bs=1 count=..` -/
def Files.ddZero (files : Files Name) (target : Name) (count : Nat) : Files Name :=
  files.write target (List.replicate count 0)

def Files.cp (files : Files Name) (source target : Name) : Option (Files Name) :=
  (files source).map (files.write target)

@[simp] theorem Files.write_apply (files : Files Name) (name other : Name) (bytes : List UInt8) :
    files.write name bytes other = if other = name then some bytes else files other := by
  simp [Files.write, Function.update_apply]

omit [DecidableEq Name] in
/-- Into a fresh or truncated file. -/
@[simp] theorem ddOutput_truncated (old bytes : List UInt8) : ddOutput old 0 bytes false = bytes := by
  have fits : bytes.length ≤ (List.replicate bytes.length (0 : UInt8)).length := by simp
  have whole := overlay_at_zero fits
  simpa [ddOutput] using whole

omit [DecidableEq Name] in
/-- Where a file is filled up front to back, over the zeros it was made of. -/
theorem ddOutput_fill (written bytes : List UInt8) {seek rest : Nat} (place : seek = written.length)
    (fits : bytes.length ≤ rest) :
    ddOutput (written ++ List.replicate rest 0) seek bytes true =
      (written ++ bytes) ++ List.replicate (rest - bytes.length) 0 := by
  have inside : seek + bytes.length ≤ (written ++ List.replicate rest (0 : UInt8)).length := by simp; omega
  have gap : seek + bytes.length - (written ++ List.replicate rest (0 : UInt8)).length = 0 := by omega
  -- what is written ends a prefix, and the zeros after it stay
  have filled := take_overlay_end inside
  have after := drop_overlay_end (written ++ List.replicate rest 0) bytes seek
  simp only [ddOutput, if_pos, gap, List.replicate_zero, List.append_nil]
  rw [← List.take_append_drop (seek + bytes.length) (overlay _ seek bytes), filled, after, place,
    List.take_left, List.drop_append, List.drop_eq_nil_of_le (Nat.le_add_right _ _), List.drop_replicate]
  simp

omit [DecidableEq Name] in
/-- Inside a file that is kept. -/
theorem ddOutput_inside {old bytes : List UInt8} {seek : Nat} (inside : seek + bytes.length ≤ old.length) :
    ddOutput old seek bytes true = overlay old seek bytes := by
  simp [ddOutput, Nat.sub_eq_zero_of_le inside]

end KernelLearning.ShellSemantics
