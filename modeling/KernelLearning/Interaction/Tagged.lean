import Mathlib.Data.List.Nodup

/-!
# Items for several receivers

One list of items, each with the receiver that it goes to.
-/

namespace KernelLearning.Interaction

variable {Item Receiver Sender : Type} [DecidableEq Receiver]

/-- What goes to the receiver, in order. -/
def addressedTo (receiver : Receiver) (items : List (Receiver × Item)) : List Item :=
  (items.filter fun item => item.1 = receiver).map Prod.snd

@[simp] theorem addressedTo_nil (receiver : Receiver) :
    addressedTo receiver ([] : List (Receiver × Item)) = [] := rfl

@[simp] theorem addressedTo_append (receiver : Receiver) (items more : List (Receiver × Item)) :
    addressedTo receiver (items ++ more) = addressedTo receiver items ++ addressedTo receiver more := by
  simp [addressedTo]

theorem addressedTo_self (receiver : Receiver) (items : List Item) :
    addressedTo receiver (items.map fun item => (receiver, item)) = items := by
  induction items with
  | nil => rfl
  | cons item items inductionHypothesis =>
    simpa [addressedTo] using inductionHypothesis

theorem addressedTo_other {receiver other : Receiver} (different : other ≠ receiver) (items : List Item) :
    addressedTo receiver (items.map fun item => (other, item)) = [] := by
  simp [addressedTo, different]

/-- When each sender sends to a receiver of its own, a receiver gets what its sender sends. -/
theorem addressedTo_flatMap (receiver : Receiver) (own : Sender → Receiver) (sends : Sender → List Item)
    {senders : List Sender} (distinct : (senders.map own).Nodup) :
    addressedTo receiver (senders.flatMap fun sender => (sends sender).map fun item => (own sender, item)) =
      ((senders.find? fun sender => own sender = receiver).map sends).getD [] := by
  induction senders with
  | nil => rfl
  | cons sender senders inductionHypothesis =>
    obtain ⟨fresh, distinct⟩ := List.nodup_cons.mp distinct
    rw [List.flatMap_cons, addressedTo_append, inductionHypothesis distinct]
    by_cases here : own sender = receiver
    · -- no other one sends to this receiver
      have nobody : senders.find? (fun sender => own sender = receiver) = none := by
        rw [List.find?_eq_none]
        intro other member same
        rw [decide_eq_true_eq] at same
        exact fresh (List.mem_map.mpr ⟨other, member, same.trans here.symm⟩)
      rw [nobody, List.find?_cons_of_pos (by rwa [decide_eq_true_eq]), here, addressedTo_self]
      exact List.append_nil _
    · rw [List.find?_cons_of_neg (by rwa [decide_eq_true_eq]), addressedTo_other here, List.nil_append]

end KernelLearning.Interaction
