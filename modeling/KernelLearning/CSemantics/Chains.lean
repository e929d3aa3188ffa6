import Mathlib.Data.List.Nodup
import Mathlib.Logic.Function.Basic

/-!
# Nodes that point to each other

A heap gives the node at an address, and a field of the node is the pointer to the
next one; `none` is `NULL`.  `Leads` is a stretch of such a list.  A list that comes to
`NULL` is determined by where it begins, and so no address is in it twice.
-/

namespace KernelLearning.CSemantics

variable {κ ν : Type}

/-- Following `next` from one pointer visits these addresses and then has the other pointer. -/
def Leads (next : ν → Option κ) (heap : κ → Option ν) : Option κ → List κ → Option κ → Prop
  | pointer, [], last => pointer = last
  | pointer, address :: rest, last =>
    pointer = some address ∧ ∃ node, heap address = some node ∧ Leads next heap (next node) rest last

variable {next : ν → Option κ} {heap : κ → Option ν} {pointer last : Option κ} {address : κ} {node : ν}
  {front back addresses : List κ}

theorem Leads.cons (found : heap address = some node) (rest : Leads next heap (next node) addresses last) :
    Leads next heap (some address) (address :: addresses) last :=
  ⟨rfl, node, found, rest⟩

/-- Two stretches, one behind the other. -/
theorem leads_append : Leads next heap pointer (front ++ back) last ↔
    ∃ middle, Leads next heap pointer front middle ∧ Leads next heap middle back last := by
  induction front generalizing pointer with
  | nil =>
    constructor
    · intro whole
      exact ⟨pointer, rfl, whole⟩
    · intro parts
      obtain ⟨middle, same, behind⟩ := parts
      rw [show pointer = middle from same]
      exact behind
  | cons address front inductionHypothesis =>
    simp only [List.cons_append, Leads, inductionHypothesis]
    constructor
    · intro whole
      obtain ⟨here, node, found, middle, before, behind⟩ := whole
      exact ⟨middle, ⟨here, node, found, before⟩, behind⟩
    · intro parts
      obtain ⟨middle, ⟨here, node, found, before⟩, behind⟩ := parts
      exact ⟨here, node, found, middle, before, behind⟩

theorem Leads.congr {heap' : κ → Option ν} (leads : Leads next heap pointer addresses last)
    (same : ∀ address ∈ addresses, heap' address = heap address) : Leads next heap' pointer addresses last := by
  induction addresses generalizing pointer with
  | nil => exact leads
  | cons address addresses inductionHypothesis =>
    obtain ⟨here, node, found, rest⟩ := leads
    refine ⟨here, node, (same address List.mem_cons_self).trans found, inductionHypothesis rest ?_⟩
    intro other member
    exact same other (List.mem_cons_of_mem address member)

theorem Leads.update [DecidableEq κ] (leads : Leads next heap pointer addresses last) (outside : address ∉ addresses)
    (content : Option ν) : Leads next (Function.update heap address content) pointer addresses last := by
  refine leads.congr fun other member => Function.update_of_ne ?_ _ _
  intro same
  rw [same] at member
  exact outside member

theorem Leads.exists_node (leads : Leads next heap pointer addresses last) (member : address ∈ addresses) :
    ∃ node, heap address = some node := by
  induction addresses generalizing pointer with
  | nil => exact absurd member List.not_mem_nil
  | cons first addresses inductionHypothesis =>
    obtain ⟨_, node, found, rest⟩ := leads
    rcases List.mem_cons.mp member with here | behind
    · rw [here]
      exact ⟨node, found⟩
    · exact inductionHypothesis rest behind

/-! ## Lists that end -/

theorem Leads.pointer_none (leads : Leads next heap none addresses last) : addresses = [] := by
  cases addresses with
  | nil => rfl
  | cons address addresses => exact absurd leads.1 (Option.some_ne_none address).symm

/-- A list that ends is determined by where it begins. -/
theorem Leads.unique {others : List κ} (leads : Leads next heap pointer addresses none)
    (leads' : Leads next heap pointer others none) : addresses = others := by
  induction addresses generalizing pointer others with
  | nil =>
    rw [show pointer = none from leads] at leads'
    exact leads'.pointer_none.symm
  | cons address addresses inductionHypothesis =>
    obtain ⟨here, node, found, rest⟩ := leads
    cases others with
    | nil => exact absurd (here.symm.trans leads') (Option.some_ne_none address)
    | cons other others =>
      obtain ⟨here', node', found', rest'⟩ := leads'
      rw [here, Option.some.injEq] at here'
      rw [← here', found, Option.some.injEq] at found'
      rw [← found'] at rest'
      rw [here', inductionHypothesis rest rest']

/-- So it does not come back to an address. -/
theorem Leads.nodup (leads : Leads next heap pointer addresses none) : addresses.Nodup := by
  induction addresses generalizing pointer with
  | nil => exact List.nodup_nil
  | cons address addresses inductionHypothesis =>
    obtain ⟨here, node, found, rest⟩ := leads
    refine List.nodup_cons.mpr ⟨fun again => ?_, inductionHypothesis rest⟩
    -- from the second visit on the list would be as long as from the first one on
    obtain ⟨front, back, split⟩ := List.append_of_mem again
    rw [split] at rest
    obtain ⟨middle, _, behind⟩ := leads_append.mp rest
    have whole : Leads next heap (some address) (address :: (front ++ address :: back)) none := .cons found rest
    rw [show middle = some address from behind.1] at behind
    have lengths := congrArg List.length (behind.unique whole)
    simp only [List.length_cons, List.length_append] at lengths
    omega

theorem Leads.exists_first (leads : Leads next heap pointer addresses last) (nonempty : addresses ≠ []) :
    ∃ first, pointer = some first := by
  cases addresses with
  | nil => exact absurd rfl nonempty
  | cons first addresses => exact ⟨first, leads.1⟩

/-- A node that points to nothing is linked behind the last one. -/
theorem Leads.extend [DecidableEq κ] {added : κ} {linking fresh : ν}
    (leads : Leads next heap pointer (front ++ [address]) none) (outside : added ∉ front ++ [address])
    (links : next linking = some added) (found : heap added = some fresh) (ends : next fresh = none) :
    Leads next (Function.update heap address (some linking)) pointer (front ++ [address, added]) none := by
  have distinct := leads.nodup
  obtain ⟨middle, before, behind⟩ := leads_append.mp leads
  have here : middle = some address := behind.1
  rw [here] at before
  have notInFront : address ∉ front := by
    intro again
    exact (List.nodup_append.mp distinct).2.2 address again address List.mem_cons_self rfl
  have apart : added ≠ address := by
    rintro rfl
    exact outside (List.mem_append_right front List.mem_cons_self)
  refine leads_append.mpr ⟨some address, before.update notInFront _, .cons (Function.update_self address _ _) ?_⟩
  rw [links]
  exact .cons ((Function.update_of_ne apart _ _).trans found) ends

end KernelLearning.CSemantics
