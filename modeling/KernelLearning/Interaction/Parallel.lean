import KernelLearning.Interaction.Program
import Mathlib.Logic.Function.Basic

/-!
# Two programs on one environment

Two processes take turns at a shared world.  Each has a part of the world of its
own.  An `Interleaving` lists which process performed which operation, in the
order in which the operations took effect.
-/

namespace KernelLearning.Interaction

inductive Side where
  | left
  | right
  deriving DecidableEq, Repr

def Side.other : Side → Side
  | .left => .right
  | .right => .left

theorem Side.forall_iff {holds : Side → Prop} : (∀ side, holds side) ↔ holds .left ∧ holds .right := by
  constructor
  · intro all
    exact ⟨all .left, all .right⟩
  · rintro ⟨left, right⟩ (_ | _)
    · exact left
    · exact right

theorem Side.exists_iff {holds : Side → Prop} : (∃ side, holds side) ↔ holds .left ∨ holds .right := by
  constructor
  · rintro ⟨_ | _, here⟩
    · exact .inl here
    · exact .inr here
  · rintro (left | right)
    · exact ⟨.left, left⟩
    · exact ⟨.right, right⟩

@[simp] theorem Side.other_ne (side : Side) : side.other ≠ side := by
  cases side <;> simp [Side.other]

variable {Op : Type} {Res : Op → Type} {Fault α Shared Own : Type}

structure Pair (Op : Type) (Res : Op → Type) (Fault α Shared Own : Type) where
  shared : Shared
  own : Side → Own
  program : Side → Program Op Res Fault α

/-- One process has its operation answered. -/
def Pair.advance (answer : Handler Op Res (Shared × Own)) (pair : Pair Op Res Fault α Shared Own)
    (side : Side) (operation : Op) (next : Res operation → Program Op Res Fault α) :
    Pair Op Res Fault α Shared Own :=
  let reply := answer operation (pair.shared, pair.own side)
  { shared := reply.2.1
    own := Function.update pair.own side reply.2.2
    program := Function.update pair.program side (next reply.1) }

inductive Interleaving (answer : Handler Op Res (Shared × Own)) (init : Pair Op Res Fault α Shared Own) :
    List (Side × Op) → Pair Op Res Fault α Shared Own → Prop where
  | start : Interleaving answer init [] init
  | step {trace pair operation next} (earlier : Interleaving answer init trace pair) (side : Side)
      (waiting : pair.program side = .call operation next) :
      Interleaving answer init (trace ++ [(side, operation)]) (pair.advance answer side operation next)

/-- What holds at the start and survives every step holds throughout. -/
theorem Interleaving.invariant {answer : Handler Op Res (Shared × Own)}
    {init last : Pair Op Res Fault α Shared Own} {steps : List (Side × Op)}
    {holds : List (Side × Op) → Pair Op Res Fault α Shared Own → Prop}
    (interleaving : Interleaving answer init steps last) (initially : holds [] init)
    (preserved : ∀ trace pair side operation next, holds trace pair →
      pair.program side = .call operation next →
        holds (trace ++ [(side, operation)]) (pair.advance answer side operation next)) :
    holds steps last := by
  induction interleaving with
  | start => exact initially
  | step earlier side waiting inductionHypothesis =>
    exact preserved _ _ side _ _ inductionHypothesis waiting

/-- A process that waits can be served next, and the other one does not notice. -/
theorem Interleaving.turn {answer : Handler Op Res (Shared × Own)}
    {init pair : Pair Op Res Fault α Shared Own} {trace : List (Side × Op)} {side : Side} {operation : Op}
    {next : Res operation → Program Op Res Fault α} (interleaving : Interleaving answer init trace pair)
    (waiting : pair.program side = .call operation next) :
    ∃ pair', Interleaving answer init (trace ++ [(side, operation)]) pair' ∧
      pair'.program side = next (answer operation (pair.shared, pair.own side)).1 ∧
      pair'.own side = (answer operation (pair.shared, pair.own side)).2.2 ∧
      pair'.program side.other = pair.program side.other ∧ pair'.own side.other = pair.own side.other := by
  refine ⟨_, interleaving.step side waiting, ?_⟩
  simp [Pair.advance]

/-! ## Orders of two short sequences -/

/-- All the ways to merge two lists. -/
def merges {α : Type} : List α → List α → List (List α)
  | [], ys => [ys]
  | xs, [] => [xs]
  | x :: xs, y :: ys => (merges xs (y :: ys)).map (x :: ·) ++ (merges (x :: xs) ys).map (y :: ·)

/-- A list is one of the merges of its two halves. -/
theorem mem_merges_filter {α : Type} (chosen : α → Bool) (list : List α) :
    list ∈ merges (list.filter chosen) (list.filter fun x => !chosen x) := by
  induction list with
  | nil => simp [merges]
  | cons head tail inductionHypothesis =>
    cases here : chosen head with
    | true =>
      simp only [List.filter_cons, here, if_true, Bool.not_true, Bool.false_eq_true, if_false]
      generalize tail.filter chosen = xs at inductionHypothesis ⊢
      generalize (tail.filter fun x => !chosen x) = ys at inductionHypothesis ⊢
      cases ys with
      | nil =>
        cases xs <;> simp_all [merges]
      | cons y ys =>
        rw [merges]
        exact List.mem_append_left _ (List.mem_map_of_mem inductionHypothesis)
    | false =>
      simp only [List.filter_cons, here, if_true, Bool.not_false, Bool.false_eq_true, if_false]
      generalize tail.filter chosen = xs at inductionHypothesis ⊢
      generalize (tail.filter fun x => !chosen x) = ys at inductionHypothesis ⊢
      cases xs with
      | nil =>
        cases ys <;> simp_all [merges]
      | cons x xs =>
        rw [merges]
        exact List.mem_append_right _ (List.mem_map_of_mem inductionHypothesis)

end KernelLearning.Interaction
