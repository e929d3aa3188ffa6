import Mathlib.Data.List.Defs
import Mathlib.Data.List.DropRight

/-!
# Parameter expansion and word splitting
-/

namespace KernelLearning.ShellSemantics

/-- `${text##*mark}` -/
def afterLast (mark : Char) (text : String) : String :=
  String.ofList (text.toList.reverse.takeWhile (· ≠ mark)).reverse

/-- What stands before the last place at which `pattern` occurs. -/
def beforeLast? (pattern : List Char) : List Char → Option (List Char)
  | [] => none
  | character :: rest =>
    match beforeLast? pattern rest with
    | some before => some (character :: before)
    | none => if pattern.isPrefixOf (character :: rest) then some [] else none

/-- `${text%pattern*}` -/
def beforeLast (pattern text : String) : String :=
  String.ofList ((beforeLast? pattern.toList text.toList).getD text.toList)

/-- `${text%%suffix}`, where `suffix` has no wildcard. -/
def withoutSuffix (suffix text : String) : String :=
  if suffix.toList.isSuffixOf text.toList then
    String.ofList (text.toList.take (text.toList.length - suffix.toList.length))
  else text

/-- The words of an unquoted expansion, before file names are matched. -/
def words (text : String) : List String :=
  ((text.toList.splitOnP fun character => character ∈ [' ', '\t', '\n']).filter (· ≠ [])).map String.ofList

/-- What `$(..)` makes of what a command prints. -/
def substituted {α : Type} [DecidableEq α] (newline : α) (output : List α) : List α :=
  output.rdropWhile fun character => character = newline

end KernelLearning.ShellSemantics
