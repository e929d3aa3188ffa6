import KernelLearning.IpcFifo.Pipe

/-!
# What the two processes print

With the two lines fixed, the state of the example is a function of the number of calls
that each of the two processes has made.  Each process waits for a message of the other,
and an empty one is never sent: it ends in a deadlock.
-/

namespace KernelLearning.IpcFifo

open CSemantics Interaction

/-! ## Counting calls -/

/-- One more call, if the process need not wait for the other one. -/
def advance (message answer : List Byte) (calls calls' : Nat) : Event → Option (Nat × Nat)
  | .child => if calls < 7 ∧ (calls = 4 → 6 ≤ calls' ∧ answer ≠ []) then some (calls + 1, calls') else none
  | .parent =>
    if calls' < 7 ∧ (calls' = 2 → 4 ≤ calls ∧ message ≠ []) ∧ (calls' = 6 → calls = 7) then some (calls, calls' + 1)
    else none

def zeros : List Byte := List.replicate BUFSIZE 0

section Configuration

variable (line answer : List Byte) (rest : List (List Byte))

end Configuration

variable {line answer : List Byte} {rest : List (List Byte)}

end KernelLearning.IpcFifo
