import Mathlib.Data.List.Nodup
import Mathlib.Data.Tree.Basic
import KernelLearning.CSemantics.Allocation

/-!
# Binary trees in a heap

A node has a label and two pointers, of which `none` is `NULL`.  `TreeAt` says which tree stands
behind a pointer and at which addresses its nodes are; `Built` that it has been made of addresses that
were not in use, and that nothing else has changed.
-/

namespace KernelLearning.Trees

open CSemantics

variable {α κ ν : Type}

/-- Where a node keeps its label and its children. -/
structure NodeFields (α κ ν : Type) where
  label : ν → α
  left : ν → Option κ
  right : ν → Option κ

/-- The tree behind a pointer, and the addresses of its nodes. -/
inductive TreeAt (fields : NodeFields α κ ν) (heap : κ → Option ν) :
    Option κ → BinaryTree α → List κ → Prop where
  | nil : TreeAt fields heap none .nil []
  | node {address node left right lefts rights} (found : heap address = some node)
      (atLeft : TreeAt fields heap (fields.left node) left lefts)
      (atRight : TreeAt fields heap (fields.right node) right rights) :
      TreeAt fields heap (some address) (.node (fields.label node) left right) (address :: (lefts ++ rights))

variable {fields : NodeFields α κ ν} {heap heap' : κ → Option ν} {pointer : Option κ} {tree : BinaryTree α}
  {addresses : List κ}

theorem TreeAt.congr (treeAt : TreeAt fields heap pointer tree addresses)
    (same : ∀ address ∈ addresses, heap' address = heap address) : TreeAt fields heap' pointer tree addresses := by
  induction treeAt with
  | nil => exact .nil
  | node found _ _ inductionLeft inductionRight =>
    obtain ⟨here, behind⟩ := List.forall_mem_cons.mp same
    obtain ⟨sameLeft, sameRight⟩ := List.forall_mem_append.mp behind
    exact .node (here.trans found) (inductionLeft sameLeft) (inductionRight sameRight)

theorem TreeAt.live (treeAt : TreeAt fields heap pointer tree addresses) :
    ∀ address ∈ addresses, ∃ node, heap address = some node := by
  induction treeAt with
  | nil => exact fun _ member => absurd member List.not_mem_nil
  | node found _ _ inductionLeft inductionRight =>
    exact List.forall_mem_cons.mpr ⟨⟨_, found⟩, List.forall_mem_append.mpr ⟨inductionLeft, inductionRight⟩⟩

theorem TreeAt.length_addresses (treeAt : TreeAt fields heap pointer tree addresses) :
    addresses.length = tree.numNodes := by
  induction treeAt with
  | nil => rfl
  | node _ _ _ inductionLeft inductionRight =>
    rw [List.length_cons, List.length_append, inductionLeft, inductionRight, BinaryTree.numNodes]

/-- A pointer is `NULL` exactly if its tree is empty. -/
theorem TreeAt.none_iff (treeAt : TreeAt fields heap pointer tree addresses) : pointer = none ↔ tree = .nil := by
  cases treeAt with
  | nil => simp
  | node => simp

/-- The heap without some of its addresses. -/
def erase [DecidableEq κ] (heap : κ → Option ν) (addresses : List κ) : κ → Option ν :=
  fun address => if address ∈ addresses then none else heap address

theorem erase_nil [DecidableEq κ] (heap : κ → Option ν) : erase heap [] = heap :=
  funext fun _ => if_neg List.not_mem_nil

theorem erase_of_not_mem [DecidableEq κ] {address : κ} (outside : address ∉ addresses) :
    erase heap addresses address = heap address := if_neg outside

/-- The children first, and then the node. -/
theorem erase_node [DecidableEq κ] (heap : κ → Option ν) (address : κ) (lefts rights : List κ) :
    Function.update (erase (erase heap lefts) rights) address none = erase heap (address :: (lefts ++ rights)) := by
  funext other
  by_cases here : other = address
  · rw [here, Function.update_self, erase, if_pos List.mem_cons_self]
  · simp only [Function.update_of_ne here, erase, List.mem_cons, List.mem_append, here, false_or]
    by_cases among : other ∈ rights
    · simp [among]
    · simp [among]

/-- The heap has been `heap` before the tree was made. -/
structure Built (fields : NodeFields α κ ν) (heap heap' : κ → Option ν) (pointer : Option κ) (tree : BinaryTree α)
    (addresses : List κ) : Prop where
  treeAt : TreeAt fields heap' pointer tree addresses
  distinct : addresses.Nodup
  fresh : ∀ address ∈ addresses, heap address = none
  frame : ∀ address, address ∉ addresses → heap' address = heap address

theorem built_nil (heap : κ → Option ν) : Built fields heap heap none .nil [] :=
  ⟨.nil, List.nodup_nil, fun _ member => absurd member List.not_mem_nil, fun _ _ => rfl⟩

/-- Without the tree the heap is as before. -/
theorem Built.erase_eq [DecidableEq κ] (built : Built fields heap heap' pointer tree addresses) :
    erase heap' addresses = heap := by
  funext address
  rw [erase]
  split
  · rename_i member
    exact (built.fresh address member).symm
  · rename_i outside
    exact built.frame address outside

theorem Built.occupies {live : List κ} (built : Built fields heap heap' pointer tree addresses)
    (occupies : Occupies live heap) : Occupies (addresses ++ live) heap' := by
  intro address content found
  rw [List.mem_append]
  by_cases member : address ∈ addresses
  · exact .inl member
  · rw [built.frame address member] at found
    exact .inr (occupies address content found)

/-- A node that is live is none of a tree that is made later, and is not changed by it. -/
theorem Built.apart {address : κ} {node : ν} (built : Built fields heap heap' pointer tree addresses)
    (found : heap address = some node) : address ∉ addresses ∧ heap' address = some node := by
  have outside : address ∉ addresses := by
    intro member
    rw [built.fresh address member] at found
    cases found
  exact ⟨outside, (built.frame address outside).trans found⟩

section

variable [DecidableEq κ] {address : κ} {node node' last : ν} {first second : Option κ} {heap₁ heap₂ : κ → Option ν}
  {treeFirst treeSecond : BinaryTree α} {firsts seconds : List κ}

/-- Two trees made one after the other around a new node: the second leaves the first as it is. -/
theorem Built.around (free : heap address = none)
    (builtFirst : Built fields (Function.update heap address (some node)) heap₁ first treeFirst firsts)
    (builtSecond : Built fields (Function.update heap₁ address (some node')) heap₂ second treeSecond seconds)
    (last : ν) :
    heap₂ address = some node' ∧
      TreeAt fields (Function.update heap₂ address (some last)) first treeFirst firsts ∧
      TreeAt fields (Function.update heap₂ address (some last)) second treeSecond seconds ∧
      (address :: (firsts ++ seconds)).Nodup ∧ (∀ other ∈ address :: (firsts ++ seconds), heap other = none) ∧
      ∀ other, other ∉ address :: (firsts ++ seconds) →
        Function.update heap₂ address (some last) other = heap other := by
  obtain ⟨outsideFirst, _⟩ := builtFirst.apart (Function.update_self address (some node) heap)
  obtain ⟨outsideSecond, kept⟩ := builtSecond.apart (Function.update_self address (some node') heap₁)
  have other_of_first : ∀ other ∈ firsts, other ≠ address := fun other member same => outsideFirst (same ▸ member)
  have other_of_second : ∀ other ∈ seconds, other ≠ address := fun other member same => outsideSecond (same ▸ member)
  -- the nodes of the first tree are live when the second one is made
  have apart : ∀ other ∈ firsts, other ∉ seconds ∧ heap₂ other = heap₁ other := by
    intro other member
    obtain ⟨content, found⟩ := builtFirst.treeAt.live other member
    have live : Function.update heap₁ address (some node') other = some content :=
      (Function.update_of_ne (other_of_first other member) _ _).trans found
    obtain ⟨outside, same⟩ := builtSecond.apart live
    exact ⟨outside, same.trans found.symm⟩
  refine ⟨kept, ?_, ?_, ?_, ?_, ?_⟩
  · exact builtFirst.treeAt.congr fun other member =>
      (Function.update_of_ne (other_of_first other member) _ _).trans (apart other member).2
  · exact builtSecond.treeAt.congr fun other member => Function.update_of_ne (other_of_second other member) _ _
  · rw [List.nodup_cons, List.mem_append, not_or]
    exact ⟨⟨outsideFirst, outsideSecond⟩, builtFirst.distinct.append builtSecond.distinct
      fun other member => (apart other member).1⟩
  · refine List.forall_mem_cons.mpr ⟨free, List.forall_mem_append.mpr ⟨fun other member => ?_, fun other member => ?_⟩⟩
    · rw [← builtFirst.fresh other member, Function.update_of_ne (other_of_first other member)]
    · have before := builtSecond.fresh other member
      rw [Function.update_of_ne (other_of_second other member)] at before
      by_cases among : other ∈ firsts
      · exact absurd member (apart other among).1
      · have unchanged := builtFirst.frame other among
        rw [Function.update_of_ne (other_of_second other member)] at unchanged
        rw [← unchanged, before]
  · intro other outside
    rw [List.mem_cons, List.mem_append, not_or, not_or] at outside
    obtain ⟨different, outsideFirst, outsideSecond⟩ := outside
    rw [Function.update_of_ne different, builtSecond.frame other outsideSecond, Function.update_of_ne different,
      builtFirst.frame other outsideFirst, Function.update_of_ne different]

/-- The left child has been made first. -/
theorem Built.node_left (free : heap address = none)
    (builtFirst : Built fields (Function.update heap address (some node)) heap₁ first treeFirst firsts)
    (builtSecond : Built fields (Function.update heap₁ address (some node')) heap₂ second treeSecond seconds)
    (left : fields.left last = first) (right : fields.right last = second) :
    Built fields heap (Function.update heap₂ address (some last)) (some address)
      (.node (fields.label last) treeFirst treeSecond) (address :: (firsts ++ seconds)) := by
  obtain ⟨_, atFirst, atSecond, distinct, fresh, frame⟩ := builtFirst.around free builtSecond last
  rw [← left] at atFirst
  rw [← right] at atSecond
  exact ⟨.node (Function.update_self _ _ _) atFirst atSecond, distinct, fresh, frame⟩

/-- The right child has been made first. -/
theorem Built.node_right (free : heap address = none)
    (builtFirst : Built fields (Function.update heap address (some node)) heap₁ first treeFirst firsts)
    (builtSecond : Built fields (Function.update heap₁ address (some node')) heap₂ second treeSecond seconds)
    (left : fields.left last = second) (right : fields.right last = first) :
    Built fields heap (Function.update heap₂ address (some last)) (some address)
      (.node (fields.label last) treeSecond treeFirst) (address :: (seconds ++ firsts)) := by
  obtain ⟨_, atFirst, atSecond, distinct, fresh, frame⟩ := builtFirst.around free builtSecond last
  rw [← left] at atSecond
  rw [← right] at atFirst
  have order : (address :: (firsts ++ seconds)).Perm (address :: (seconds ++ firsts)) := List.perm_append_comm.cons _
  refine ⟨.node (Function.update_self _ _ _) atSecond atFirst, order.nodup_iff.mp distinct, ?_, ?_⟩
  · intro other member
    exact fresh other (order.mem_iff.mpr member)
  · intro other outside
    exact frame other (mt order.mem_iff.mp outside)

end

end KernelLearning.Trees
