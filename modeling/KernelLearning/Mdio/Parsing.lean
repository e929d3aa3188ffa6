import KernelLearning.CSemantics.Loops
import KernelLearning.CSemantics.Platform
import KernelLearning.CSemantics.Segments

/-!
# parse_input_string

The loop takes one field for each comma, so what stands behind the last comma is never
looked at.  A number goes through a `char` on its way into `value`.  The comparisons
with `'r'` and `'w'` are read as those with the strings of one letter.  The result is
`none` if a byte outside `tmp_data` or an element outside `value` is written, or if more
turns are needed than given.
-/

namespace KernelLearning.Mdio

open CSemantics

/-! ## The program -/

/-- `MDIO_READ` and `MDIO_WRITE`. -/
def MDIO_READ : Int := 0x00

def MDIO_WRITE : Int := 0x01

/-- The variables of `parse_input_string`, with the arrays that `value` and `flag` point to. -/
structure Parse where
  buffer : List Byte
  tmp_data : List Byte
  data : Byte
  i : Nat
  value : Array Int
  flag : Int

/-- What `tmp_data` and `data` hold before they are written. -/
structure Locals where
  tmp_data : List Byte
  data : Byte
  length_eq : tmp_data.length = 20

/-- The variables in front of the loop; `buffer` is a copy of the string. -/
def Locals.start (locals : Locals) (string : List Byte) (value : Array Int) (flag : Int) : Parse :=
  { buffer := string, tmp_data := locals.tmp_data, data := locals.data, i := 0, value := value, flag := flag }

/-- A field that fits into `tmp_data`. -/
structure Field (field : List Byte) : Prop where
  isText : IsText field
  noComma : 44 ∉ field
  short : field.length < 20

def Parse.copied (p : Parse) (field rest : List Byte) : Parse :=
  { p with buffer := rest, tmp_data := field ++ 0 :: p.tmp_data.drop (field.length + 1) }

variable {platform : Platform} {p : Parse} {field rest : List Byte}

theorem Parse.length_copied (isField : Field field) (length : p.tmp_data.length = 20) (rest : List Byte) :
    (p.copied field rest).tmp_data.length = 20 := by
  have short := isField.short
  simp only [copied, List.length_append, List.length_cons, List.length_drop]
  omega

/-- `<v1>,...,<vk>`. -/
def numbers (values : List Nat) : List Byte := [44].intercalate (values.map decimalNat)

inductive Operation where
  | read
  | write
  deriving DecidableEq, Repr

def Operation.letter : Operation → List Byte
  | .read => ascii "r"
  | .write => ascii "w"

def Operation.flag : Operation → Int
  | .read => MDIO_READ
  | .write => MDIO_WRITE

/-- `<op>,<v1>,...,<vk>`. -/
def command (op : Operation) (values : List Nat) : List Byte := op.letter ++ 44 :: numbers values

variable {locals : Locals} {op : Operation} {value : Array Int} {flag : Int}

end KernelLearning.Mdio
