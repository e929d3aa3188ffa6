import KernelLearning.BinaryNodes.Pointers

/-!
# Visiting and freeing nodes

On the nodes of a tree, and with depth enough, the functions on the heap do what those on the tree do, and
`Postorder_Free_BinaryTree` frees each node once, behind the last access to it.
-/

namespace KernelLearning.BinaryNodes.Pointers

open CSemantics Trees

variable {κ σ : Type} {memory : Memory κ (NodeStruct κ) σ} {pointer : Option κ} {tree : BinaryNode}
  {addresses : List κ} {depth : Nat}

/-- The depth that is left for the children. -/
theorem exists_depth_left {x : Int} {left right : BinaryNode} (deep : (BinaryTree.node x left right).height < depth) :
    ∃ below, depth = below + 1 ∧ left.height < below ∧ right.height < below := by
  cases depth with
  | zero => omega
  | succ below =>
    rw [BinaryTree.height] at deep
    exact ⟨below, rfl, by omega, by omega⟩

theorem exists_depth_succ (deep : tree.height < depth) : ∃ below, depth = below + 1 :=
  Nat.exists_eq_succ_of_ne_zero (Nat.ne_of_gt (Nat.zero_lt_of_lt deep))

/-! ## Traversals -/

/-- The same on a tree. -/
def visit (before between behind : Int → List Int → List Int) : BinaryNode → List Int → List Int
  | .nil, printed => printed
  | .node idx left right, printed =>
    behind idx (visit before between behind right
      (between idx (visit before between behind left (before idx printed))))

theorem traverse_of_treeAt {before between behind : Int → List Int → List Int}
    (treeAt : TreeAt (nodeFields κ) memory.heap pointer tree addresses) (deep : tree.height < depth)
    (printed : List Int) :
    traverse memory before between behind depth pointer printed = some (visit before between behind tree printed) := by
  induction treeAt generalizing depth printed with
  | nil =>
    obtain ⟨below, rfl⟩ := exists_depth_succ deep
    rfl
  | node found _ _ inductionLeft inductionRight =>
    obtain ⟨below, rfl, deepLeft, deepRight⟩ := exists_depth_left deep
    rw [traverse, Memory.load_some, found, Option.bind_some]
    simp only [nodeFields] at inductionLeft inductionRight
    rw [inductionLeft deepLeft, Option.bind_some, inductionRight deepRight, Option.bind_some]
    rfl

theorem visit_preorder (tree : BinaryNode) (printed : List Int) :
    visit printIdx nothing nothing tree printed = BinaryNodes.Preorder_Traverse_BinaryTree tree printed := by
  induction tree generalizing printed with
  | nil => rfl
  | node idx left right inductionLeft inductionRight =>
    rw [visit, BinaryNodes.Preorder_Traverse_BinaryTree, nothing, nothing, inductionRight, inductionLeft]

theorem visit_inorder (tree : BinaryNode) (printed : List Int) :
    visit nothing printIdx nothing tree printed = BinaryNodes.Middorder_Traverse_BinaryTree tree printed := by
  induction tree generalizing printed with
  | nil => rfl
  | node idx left right inductionLeft inductionRight =>
    rw [visit, BinaryNodes.Middorder_Traverse_BinaryTree, nothing, nothing, inductionRight, inductionLeft]

theorem visit_postorder (tree : BinaryNode) (printed : List Int) :
    visit nothing nothing printIdx tree printed = BinaryNodes.Postorder_Traverse_BinaryTree tree printed := by
  induction tree generalizing printed with
  | nil => rfl
  | node idx left right inductionLeft inductionRight =>
    rw [visit, BinaryNodes.Postorder_Traverse_BinaryTree, nothing, nothing, inductionRight, inductionLeft]

/-! ## Depth and leaves -/

theorem BinaryTree_Deep_of_treeAt (treeAt : TreeAt (nodeFields κ) memory.heap pointer tree addresses)
    (deep : tree.height < depth) (small : tree.height < 2 ^ 31) :
    BinaryTree_Deep memory depth pointer = some (tree.height : Int) := by
  induction treeAt generalizing depth with
  | nil =>
    obtain ⟨below, rfl⟩ := exists_depth_succ deep
    rfl
  | @node address node left right lefts rights found _ _ inductionLeft inductionRight =>
    obtain ⟨below, rfl, deepLeft, deepRight⟩ := exists_depth_left deep
    rw [BinaryTree.height] at small
    rw [BinaryTree_Deep, Memory.load_some, found, Option.bind_some]
    simp only [nodeFields] at inductionLeft inductionRight
    rw [inductionLeft deepLeft (by omega), Option.bind_some, inductionRight deepRight (by omega), Option.bind_some]
    -- the larger of the two
    by_cases larger : (left.height : Int) ≥ right.height
    · rw [if_pos larger, addInt_of_isInt32 (by rw [IsInt32]; omega), BinaryTree.height]
      congr 1
      omega
    · rw [if_neg larger, addInt_of_isInt32 (by rw [IsInt32]; omega), BinaryTree.height]
      congr 1
      omega

theorem BinaryTree_LeafCount_of_treeAt (treeAt : TreeAt (nodeFields κ) memory.heap pointer tree addresses)
    (deep : tree.height < depth) (count : Int) :
    BinaryTree_LeafCount memory depth pointer count = BinaryNodes.BinaryTree_LeafCount tree count := by
  induction treeAt generalizing depth count with
  | nil =>
    obtain ⟨below, rfl⟩ := exists_depth_succ deep
    rfl
  | @node address node left right lefts rights found atLeft atRight inductionLeft inductionRight =>
    obtain ⟨below, rfl, deepLeft, deepRight⟩ := exists_depth_left deep
    have leaf : node.left = none ∧ node.right = none ↔ left = .nil ∧ right = .nil :=
      and_congr atLeft.none_iff atRight.none_iff
    rw [BinaryTree_LeafCount, BinaryNodes.BinaryTree_LeafCount, Memory.load_some, found, Option.bind_some]
    simp only [leaf]
    refine Option.bind_congr fun count _ => ?_
    rw [show BinaryTree_LeafCount memory below node.left count = _ from inductionLeft deepLeft count]
    exact Option.bind_congr fun count _ => inductionRight deepRight count

/-! ## Freeing -/

variable [DecidableEq κ] {allocator : Allocator κ (NodeStruct κ) σ}

theorem Postorder_Free_BinaryTree_of_treeAt {heap : κ → Option (NodeStruct κ)}
    (treeAt : TreeAt (nodeFields κ) heap pointer tree addresses) (distinct : addresses.Nodup)
    (same : ∀ address ∈ addresses, memory.heap address = heap address) (deep : tree.height < depth) :
    ∃ memory', Postorder_Free_BinaryTree allocator depth pointer memory = some memory' ∧
      memory'.heap = erase memory.heap addresses := by
  induction treeAt generalizing memory depth with
  | nil =>
    obtain ⟨below, rfl⟩ := exists_depth_succ deep
    exact ⟨memory, rfl, (erase_nil _).symm⟩
  | @node address node left right lefts rights found _ _ inductionLeft inductionRight =>
    obtain ⟨below, rfl, deepLeft, deepRight⟩ := exists_depth_left deep
    obtain ⟨outside, distinct⟩ := List.nodup_cons.mp distinct
    rw [List.mem_append, not_or] at outside
    obtain ⟨distinctLeft, distinctRight, apart⟩ := List.nodup_append.mp distinct
    obtain ⟨here, same⟩ := List.forall_mem_cons.mp same
    obtain ⟨sameLeft, sameRight⟩ := List.forall_mem_append.mp same
    obtain ⟨memory₁, freedLeft, heap₁⟩ := inductionLeft distinctLeft sameLeft deepLeft
    -- the node and its right child are still live behind the left one
    have here₁ : memory₁.heap address = some node := by
      rw [heap₁, erase_of_not_mem outside.1, here, found]
    have sameRight₁ : ∀ other ∈ rights, memory₁.heap other = heap other := by
      intro other member
      have notLeft : other ∉ lefts := fun among => apart other among other member rfl
      rw [heap₁, erase_of_not_mem notLeft]
      exact sameRight other member
    obtain ⟨memory₂, freedRight, heap₂⟩ := inductionRight distinctRight sameRight₁ deepRight
    have here₂ : memory₂.heap address = some node := by
      rw [heap₂, erase_of_not_mem outside.2, here₁]
    simp only [nodeFields] at freedLeft freedRight
    refine ⟨{ heap := Function.update memory₂.heap address none, state := allocator.free memory₂.state address },
      ?_, ?_⟩
    · rw [Postorder_Free_BinaryTree, Memory.load_some, here, found, Option.bind_some, freedLeft, Option.bind_some,
        Memory.load_some, here₁, Option.bind_some, freedRight, Option.bind_some, Memory.free_of_live here₂]
    · rw [← erase_node, ← heap₁, ← heap₂]

end KernelLearning.BinaryNodes.Pointers
