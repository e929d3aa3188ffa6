import KernelLearning.BinaryNodes.Creation
import KernelLearning.BinaryNodes.Statics
import KernelLearning.CSemantics.Allocation
import KernelLearning.Trees.InMemory

/-!
# Binary trees behind pointers

The functions on a heap, where `malloc` may fail and an access to what is not live, or a position
outside of the data, is `none`; so is a recursion deeper than given.  They do on the heap what the
functions on trees do.
-/

namespace KernelLearning.BinaryNodes.Pointers

open CSemantics Trees

/-! ## The program -/

/-- `struct binary_node`. -/
structure NodeStruct (κ : Type) where
  idx : Int
  left : Option κ
  right : Option κ

inductive Child where
  | left
  | right

def Child.other : Child → Child
  | .left => .right
  | .right => .left

/-- The assignment to the pointer to this child. -/
def Child.set {κ : Type} : Child → Option κ → NodeStruct κ → NodeStruct κ
  | .left, pointer, node => { node with left := pointer }
  | .right, pointer, node => { node with right := pointer }

/-- What is returned, the memory and `counter` afterwards. -/
structure Created (κ σ : Type) where
  node : Option κ
  memory : Memory κ (NodeStruct κ) σ
  counter : Nat

section

variable {κ σ : Type}

section

variable [DecidableEq κ]

/-- The node that is allocated, with its label. -/
def newNode (allocator : Allocator κ (NodeStruct κ) σ) (memory : Memory κ (NodeStruct κ) σ) (ch : Int) :
    Option (Option κ × Memory κ (NodeStruct κ) σ) :=
  let allocated := memory.malloc allocator
  (allocated.2.modify allocated.1 fun content => { content with idx := ch }).map fun memory => (allocated.1, memory)

/-- The recursion, with the child that is created first. -/
def createNodes (allocator : Allocator κ (NodeStruct κ) σ) (data : List Int) (first : Child) :
    Nat → Memory κ (NodeStruct κ) σ → Nat → Option (Created κ σ)
  | 0, _, _ => none
  | depth + 1, memory, counter =>
    data[counter]?.bind fun ch =>
      if ch = -1 then some ⟨none, memory, counter + 1⟩
      else
        (newNode allocator memory ch).bind fun node =>
        (createNodes allocator data first depth node.2 (counter + 1)).bind fun one =>
        (one.memory.modify node.1 (first.set one.node)).bind fun memory =>
        (createNodes allocator data first depth memory one.counter).bind fun two =>
        (two.memory.modify node.1 (first.other.set two.node)).bind fun memory =>
        some ⟨node.1, memory, two.counter⟩

def Preorder_Create_BinaryTree (allocator : Allocator κ (NodeStruct κ) σ) (BinaryTree_data : List Int) :
    Nat → Memory κ (NodeStruct κ) σ → Nat → Option (Created κ σ) :=
  createNodes allocator BinaryTree_data .left

def Postorder_Create_BinaryTree (allocator : Allocator κ (NodeStruct κ) σ) (BinaryTree_data : List Int) :
    Nat → Memory κ (NodeStruct κ) σ → Nat → Option (Created κ σ) :=
  createNodes allocator BinaryTree_data .right

end

/-- The recursion, with what is printed before, between and behind the children. -/
def traverse (memory : Memory κ (NodeStruct κ) σ) (before between behind : Int → List Int → List Int) :
    Nat → Option κ → List Int → Option (List Int)
  | 0, _, _ => none
  | _ + 1, none, printed => some printed
  | depth + 1, some node, printed =>
    (memory.load (some node)).bind fun content =>
      (traverse memory before between behind depth content.left (before content.idx printed)).bind fun printed =>
      (traverse memory before between behind depth content.right (between content.idx printed)).bind fun printed =>
      some (behind content.idx printed)

def nothing (_ : Int) (printed : List Int) : List Int := printed

def Preorder_Traverse_BinaryTree (memory : Memory κ (NodeStruct κ) σ) :
    Nat → Option κ → List Int → Option (List Int) :=
  traverse memory printIdx nothing nothing

def Middorder_Traverse_BinaryTree (memory : Memory κ (NodeStruct κ) σ) :
    Nat → Option κ → List Int → Option (List Int) :=
  traverse memory nothing printIdx nothing

def Postorder_Traverse_BinaryTree (memory : Memory κ (NodeStruct κ) σ) :
    Nat → Option κ → List Int → Option (List Int) :=
  traverse memory nothing nothing printIdx

def BinaryTree_Deep (memory : Memory κ (NodeStruct κ) σ) : Nat → Option κ → Option Int
  | 0, _ => none
  | _ + 1, none => some 0
  | depth + 1, some node =>
    (memory.load (some node)).bind fun content =>
      (BinaryTree_Deep memory depth content.left).bind fun leftdeep =>
      (BinaryTree_Deep memory depth content.right).bind fun rightdeep =>
      if leftdeep ≥ rightdeep then addInt leftdeep 1 else addInt rightdeep 1

/-- With the static variable. -/
def BinaryTree_LeafCount (memory : Memory κ (NodeStruct κ) σ) : Nat → Option κ → Int → Option Int
  | 0, _, _ => none
  | _ + 1, none, count => some count
  | depth + 1, some node, count =>
    (memory.load (some node)).bind fun content =>
      (if content.left = none ∧ content.right = none then addInt count 1 else some count).bind fun count =>
      (BinaryTree_LeafCount memory depth content.left count).bind fun count =>
      BinaryTree_LeafCount memory depth content.right count

variable [DecidableEq κ]

def Postorder_Free_BinaryTree (allocator : Allocator κ (NodeStruct κ) σ) :
    Nat → Option κ → Memory κ (NodeStruct κ) σ → Option (Memory κ (NodeStruct κ) σ)
  | 0, _, _ => none
  | _ + 1, none, memory => some memory
  | depth + 1, some node, memory =>
    (memory.load (some node)).bind fun content =>
      (Postorder_Free_BinaryTree allocator depth content.left memory).bind fun memory =>
      (memory.load (some node)).bind fun content =>
      (Postorder_Free_BinaryTree allocator depth content.right memory).bind fun memory =>
      memory.free allocator (some node)

end

/-! ## Creating -/

def nodeFields (κ : Type) : NodeFields Int κ (NodeStruct κ) := ⟨NodeStruct.idx, NodeStruct.left, NodeStruct.right⟩

/-- The tree of the children in the order in which they are created. -/
def Child.join : Child → Int → BinaryNode → BinaryNode → BinaryNode
  | .left => fun idx left right => .node idx left right
  | .right => fun idx right left => .node idx left right

theorem Child.height_join (first : Child) (idx : Int) (one two : BinaryNode) :
    (first.join idx one two).height = max one.height two.height + 1 := by
  cases first with
  | left => rfl
  | right => exact congrArg (· + 1) (Nat.max_comm _ _)

theorem Child.numNodes_join (first : Child) (idx : Int) (one two : BinaryNode) :
    (first.join idx one two).numNodes = one.numNodes + two.numNodes + 1 := by
  cases first with
  | left => rfl
  | right => exact congrArg (· + 1) (Nat.add_comm _ _)

section

variable {κ σ : Type} [DecidableEq κ] {allocator : Allocator κ (NodeStruct κ) σ} {data : List Int} {first : Child}
  {memory : Memory κ (NodeStruct κ) σ} {counter depth : Nat}

/-- A node with its children behind it. -/
theorem Built.join {heap heap₁ heap₂ : κ → Option (NodeStruct κ)} {address : κ} {node : NodeStruct κ}
    {one two : Option κ} {treeOne treeTwo : BinaryNode} {ones twos : List κ} (free : heap address = none)
    (builtOne : Built (nodeFields κ) (Function.update heap address (some node)) heap₁ one treeOne ones)
    (builtTwo : Built (nodeFields κ) (Function.update heap₁ address (some (first.set one node))) heap₂ two treeTwo
      twos) :
    ∃ addresses, Built (nodeFields κ) heap
      (Function.update heap₂ address (some (first.other.set two (first.set one node)))) (some address)
      (first.join node.idx treeOne treeTwo) addresses := by
  cases first with
  | left => exact ⟨_, builtOne.node_left free builtTwo rfl rfl⟩
  | right => exact ⟨_, builtOne.node_right free builtTwo rfl rfl⟩

theorem newNode_some {memory' : Memory κ (NodeStruct κ) σ} {ch : Int} {pointer : Option κ}
    (returned : newNode allocator memory ch = some (pointer, memory')) :
    ∃ address node, pointer = some address ∧ memory.heap address = none ∧ node.idx = ch ∧
      memory'.heap = Function.update memory.heap address (some node) := by
  obtain ⟨memory'', stored, same⟩ := Option.map_eq_some_iff.mp returned
  cases same
  obtain ⟨address, content, here, live, heap'⟩ := Memory.modify_some stored
  obtain ⟨free, found, heap₀⟩ := Memory.malloc_some (Prod.ext here rfl : memory.malloc allocator = (some address, _))
  refine ⟨address, { content with idx := ch }, here, free, rfl, ?_⟩
  rw [heap', heap₀, Function.update_idem]

theorem newNode_of_provides {capacity : Nat} {live : List κ} (provides : allocator.Provides capacity)
    (occupies : Occupies live memory.heap) (room : live.length < capacity) (ch : Int) :
    ∃ node, newNode allocator memory ch = some node := by
  obtain ⟨address, memory', allocated⟩ := Memory.malloc_of_provides provides occupies room
  obtain ⟨_, content, heap'⟩ := Memory.malloc_some allocated
  have live : memory'.heap address = some content := by
    rw [heap', Function.update_self]
  simp only [newNode, allocated, Memory.modify_of_live live, Option.map_some]
  exact ⟨_, rfl⟩

theorem modify_kept {memory' : Memory κ (NodeStruct κ) σ} {address : κ} {node : NodeStruct κ}
    {change : NodeStruct κ → NodeStruct κ} (stored : memory.modify (some address) change = some memory')
    (kept : memory.heap address = some node) :
    memory'.heap = Function.update memory.heap address (some (change node)) := by
  rw [Memory.modify_of_live kept] at stored
  rw [← Option.some.inj stored]

/-- Whatever the allocator answers: if the function returns, the tree that is encoded in the data has been made of
new nodes. -/
theorem createNodes_built {created : Created κ σ}
    (returns : createNodes allocator data first depth memory counter = some created) :
    ∃ tree addresses, create first.join data counter = some (tree, created.counter) ∧ tree.height < depth ∧
      Built (nodeFields κ) memory.heap created.memory.heap created.node tree addresses := by
  induction depth generalizing memory counter created with
  | zero => cases returns
  | succ depth inductionHypothesis =>
    obtain ⟨ch, found, returns⟩ := Option.bind_eq_some_iff.mp returns
    obtain ⟨inside, same⟩ := List.getElem?_eq_some_iff.mp found
    rw [create_eq, dif_pos inside, same]
    split at returns
    · rename_i stop
      cases returns
      rw [if_pos stop]
      exact ⟨.nil, [], rfl, Nat.succ_pos depth, built_nil _⟩
    · rename_i other
      rw [if_neg other]
      obtain ⟨⟨pointer, memory₁⟩, allocated, returns⟩ := Option.bind_eq_some_iff.mp returns
      obtain ⟨one, createdOne, returns⟩ := Option.bind_eq_some_iff.mp returns
      obtain ⟨memory₂, storedOne, returns⟩ := Option.bind_eq_some_iff.mp returns
      obtain ⟨two, createdTwo, returns⟩ := Option.bind_eq_some_iff.mp returns
      obtain ⟨memory₃, storedTwo, returns⟩ := Option.bind_eq_some_iff.mp returns
      cases returns
      obtain ⟨address, node, here, free, label, heap₁⟩ := newNode_some allocated
      simp only [here] at createdOne createdTwo storedOne storedTwo ⊢
      obtain ⟨treeOne, ones, encodedOne, deepOne, builtOne⟩ := inductionHypothesis createdOne
      obtain ⟨treeTwo, twos, encodedTwo, deepTwo, builtTwo⟩ := inductionHypothesis createdTwo
      rw [heap₁] at builtOne
      -- the node still has its label, and then its first child
      have heap₂ := modify_kept storedOne (builtOne.apart (Function.update_self _ _ _)).2
      rw [heap₂] at builtTwo
      have heap₃ := modify_kept storedTwo (builtTwo.apart (Function.update_self _ _ _)).2
      obtain ⟨addresses, built⟩ := Built.join free builtOne builtTwo
      refine ⟨first.join ch treeOne treeTwo, addresses, ?_, ?_, ?_⟩
      · rw [encodedOne, Option.bind_some, encodedTwo, Option.bind_some]
      · rw [Child.height_join]
        omega
      · rw [label] at built
        rw [heap₃]
        exact built

/-- Nothing is missing: if a tree is encoded in the data, and there is room for its nodes, the function returns. -/
theorem createNodes_returns {capacity : Nat} (provides : allocator.Provides capacity) {live : List κ}
    (occupies : Occupies live memory.heap) {tree : BinaryNode} {after : Nat}
    (encoded : create first.join data counter = some (tree, after)) (room : live.length + tree.numNodes ≤ capacity)
    (deep : tree.height < depth) : (createNodes allocator data first depth memory counter).isSome := by
  induction depth generalizing memory counter live tree after with
  | zero => omega
  | succ depth inductionHypothesis =>
    rw [create_eq] at encoded
    split at encoded
    · rename_i inside
      rw [createNodes, List.getElem?_eq_getElem inside, Option.bind_some]
      split at encoded
      · rename_i stop
        rw [if_pos stop]
        rfl
      · rename_i other
        rw [if_neg other]
        obtain ⟨⟨treeOne, middle⟩, encodedOne, encoded⟩ := Option.bind_eq_some_iff.mp encoded
        obtain ⟨⟨treeTwo, last⟩, encodedTwo, encoded⟩ := Option.bind_eq_some_iff.mp encoded
        rw [Option.some.injEq, Prod.mk.injEq] at encoded
        have deepOne : treeOne.height < depth ∧ treeTwo.height < depth := by
          rw [← encoded.1, Child.height_join] at deep
          simp only at deep
          omega
        have roomAll : live.length + (treeOne.numNodes + treeTwo.numNodes + 1) ≤ capacity := by
          rw [← encoded.1, Child.numNodes_join] at room
          exact room
        obtain ⟨⟨pointer, memory₁⟩, allocated⟩ :=
          newNode_of_provides provides occupies (by omega) data[counter]
        obtain ⟨address, node, here, free, label, heap₁⟩ := newNode_some allocated
        have occupies₁ : Occupies (address :: live) memory₁.heap := by
          rw [heap₁]
          exact occupies.update address _
        have returnsOne : (createNodes allocator data first depth memory₁ (counter + 1)).isSome :=
          inductionHypothesis occupies₁ encodedOne (by rw [List.length_cons]; omega) deepOne.1
        obtain ⟨one, createdOne⟩ := Option.isSome_iff_exists.mp returnsOne
        obtain ⟨_, ones, encodedOne', _, builtOne⟩ := createNodes_built createdOne
        rw [encodedOne, Option.some.injEq, Prod.mk.injEq] at encodedOne'
        have nodesOne := builtOne.treeAt.length_addresses
        rw [← encodedOne'.1] at nodesOne
        have occupiesOne := builtOne.occupies occupies₁
        rw [heap₁] at builtOne
        have storedOne := Memory.modify_of_live (builtOne.apart (Function.update_self _ _ _)).2 (first.set one.node)
        generalize memory₂same : ({ one.memory with heap := _ } : Memory κ (NodeStruct κ) σ) = memory₂ at storedOne
        have occupies₂ : Occupies (ones ++ address :: live) memory₂.heap := by
          rw [← memory₂same]
          exact occupiesOne.update_of_mem (by simp) _
        have returnsTwo : (createNodes allocator data first depth memory₂ one.counter).isSome := by
          rw [← encodedOne'.2]
          refine inductionHypothesis occupies₂ encodedTwo ?_ deepOne.2
          rw [List.length_append, List.length_cons, nodesOne]
          omega
        obtain ⟨two, createdTwo⟩ := Option.isSome_iff_exists.mp returnsTwo
        obtain ⟨_, twos, _, _, builtTwo⟩ := createNodes_built createdTwo
        rw [← memory₂same] at builtTwo
        have storedTwo := Memory.modify_of_live (builtTwo.apart (Function.update_self _ _ _)).2
          (first.other.set two.node)
        simp only [allocated, here, createdOne, storedOne, createdTwo, storedTwo, Option.bind_some, Option.isSome_some]
    · cases encoded

end

end KernelLearning.BinaryNodes.Pointers
