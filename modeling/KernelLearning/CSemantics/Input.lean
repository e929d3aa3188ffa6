import KernelLearning.CSemantics.Text

/-!
# Lines of input

`gets` reads a line into an object, whatever the size of the object.  The input is a
list of lines without their newlines.
-/

namespace KernelLearning.CSemantics

/-- `gets`: the object and the lines that are left afterwards, or `none` if the line with its NUL
does not fit.  At the end of the input the object stays as it is. -/
def gets (object : List Byte) : List (List Byte) → Option (List Byte × List (List Byte))
  | [] => some (object, [])
  | line :: lines =>
    if line.length < object.length then some (line ++ 0 :: object.drop (line.length + 1), lines) else none

/-- The string that a line makes: what stands before its first NUL. -/
def lineText (line : List Byte) : List Byte := line.takeWhile (· ≠ 0)

end KernelLearning.CSemantics
