/-!
# What a queue owes to its users

The uses of a queue since it was last emptied: what was accepted into it and what
was delivered from it.  A queue that has lost, duplicated or reordered nothing
holds the elements that were accepted and not yet delivered.
-/

namespace KernelLearning.Bytes

inductive Use (α : Type) where
  | accept (elements : List α)
  | deliver (elements : List α)
  | empty
  | none

variable {α : Type}

/-- One more use, after `accepted` since the queue was last emptied. -/
def Use.accepted (accepted : List α) : Use α → List α
  | .accept elements => accepted ++ elements
  | .empty => []
  | .deliver _ | .none => accepted

def Use.delivered (delivered : List α) : Use α → List α
  | .deliver elements => delivered ++ elements
  | .empty => []
  | .accept _ | .none => delivered

/-- The elements accepted since the last `empty`, in order. -/
def acceptedBy (uses : List (Use α)) : List α := uses.foldl Use.accepted []

/-- The elements delivered since the last `empty`, in order. -/
def deliveredBy (uses : List (Use α)) : List α := uses.foldl Use.delivered []

@[simp] theorem acceptedBy_append_singleton (uses : List (Use α)) (use : Use α) :
    acceptedBy (uses ++ [use]) = use.accepted (acceptedBy uses) := by
  simp [acceptedBy]

@[simp] theorem deliveredBy_append_singleton (uses : List (Use α)) (use : Use α) :
    deliveredBy (uses ++ [use]) = use.delivered (deliveredBy uses) := by
  simp [deliveredBy]

/-- What one use may do to the contents. -/
def Use.Moves : Use α → List α → List α → Prop
  | .accept elements, before, after => after = before ++ elements
  | .deliver elements, before, after => before = elements ++ after
  | .empty, _, after => after = []
  | .none, before, after => after = before

/-- Nothing was lost, duplicated or reordered. -/
def Conserves (uses : List (Use α)) (contents : List α) : Prop :=
  deliveredBy uses ++ contents = acceptedBy uses

theorem conserves_nil : Conserves ([] : List (Use α)) [] := by
  simp [Conserves, acceptedBy, deliveredBy]

theorem Conserves.append {uses : List (Use α)} {before after : List α} (so_far : Conserves uses before)
    {use : Use α} (moves : use.Moves before after) : Conserves (uses ++ [use]) after := by
  simp only [Conserves, acceptedBy_append_singleton, deliveredBy_append_singleton] at so_far ⊢
  cases use with
  | accept elements =>
    simp only [Use.Moves] at moves
    rw [Use.accepted, Use.delivered, moves, ← so_far, List.append_assoc]
  | deliver elements =>
    simp only [Use.Moves] at moves
    rw [Use.accepted, Use.delivered, List.append_assoc, ← moves, so_far]
  | empty =>
    simp only [Use.Moves] at moves
    simp [Use.accepted, Use.delivered, moves]
  | none =>
    simp only [Use.Moves] at moves
    rw [Use.accepted, Use.delivered, moves, so_far]

end KernelLearning.Bytes
