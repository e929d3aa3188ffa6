import KernelLearning.Interaction.Program

/-!
# Programs over an implemented interface

A program calls an interface, and each call of the interface is itself a program over
another environment.  If the implementation of every call simulates what the interface
is said to do, the whole program behaves as the interface promises.
-/

namespace KernelLearning.Interaction

namespace Program

variable {Op Op' : Type} {Res : Op → Type} {Res' : Op' → Type} {Fault Fault' α Local World World' : Type}

/-- Every operation is replaced by its implementation, which keeps variables of its own.
A fault of the program itself becomes a result. -/
def interpret (implement : (operation : Op) → Local → Program Op' Res' Fault' (Res operation × Local)) :
    Program Op Res Fault α → Local → Program Op' Res' Fault' (Except Fault α × Local)
  | .done value, locals => .done (.ok value, locals)
  | .stuck fault, locals => .done (.error fault, locals)
  | .call operation next, locals =>
    implement operation locals >>= fun result => interpret implement (next result.1) result.2

end Program

end KernelLearning.Interaction
