/-!
# Pipes

A pipe is a queue of bytes with a read end and a write end, each of which several
processes may have open.  A message that fits is written as a whole.
-/

namespace KernelLearning.Interaction

variable {α : Type}

/-- `read`: at most `count` items and what is left.  A reader of an empty pipe waits while a write
end is open, and gets nothing afterwards. -/
def pipeRead (count : Nat) (writable : Bool) (content : List α) : Option (List α × List α) :=
  if content.isEmpty && writable then none else some (content.take count, content.drop count)

/-- `write`: the new content, or `none` where the writer is killed as nobody can read.  Writing
nothing has no effect. -/
def pipeWrite (readable : Bool) (message content : List α) : Option (List α) :=
  if message.isEmpty then some content else if readable then some (content ++ message) else none

end KernelLearning.Interaction
