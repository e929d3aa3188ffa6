import KernelLearning.BinaryNodes.PointerVisits
import KernelLearning.CSemantics.Text

/-!
# binary.c

The whole program on a heap that may already hold other objects, with the data that
`BinaryTree_data` points to.
-/

namespace KernelLearning.BinaryNodes.Pointers

open CSemantics Trees

/-! ## The program -/

/-- `printf("%d ", idx)` for each. -/
def numbers (printed : List Int) : List Byte := printed.flatMap fun idx => decimal idx ++ ascii " "

def text (pre midd post : List Int) (deep leaf : Int) : List Byte :=
  ascii "Preorder Create BinaryTree\n" ++
  ascii "Preorder traverse binary-tree\n" ++ numbers pre ++ ascii "\n" ++
  ascii "Middorder traverse binary-tree\n" ++ numbers midd ++ ascii "\n" ++
  ascii "Postorder traverse binary-tree\n" ++ numbers post ++ ascii "\n" ++
  ascii "The binary-tree deep: " ++ decimal deep ++ ascii "\n" ++
  ascii "The binary-tree leaf: " ++ decimal leaf ++ ascii "\n"

variable {κ σ : Type} [DecidableEq κ]

/-- The memory at the end, and what is printed. -/
def binaryMain (allocator : Allocator κ (NodeStruct κ) σ) (BinaryTree_data : List Int) (depth : Nat)
    (memory : Memory κ (NodeStruct κ) σ) : Option (Memory κ (NodeStruct κ) σ × List Byte) :=
  (Preorder_Create_BinaryTree allocator BinaryTree_data depth memory 0).bind fun basic_root =>
  (Preorder_Traverse_BinaryTree basic_root.memory depth basic_root.node []).bind fun pre =>
  (Middorder_Traverse_BinaryTree basic_root.memory depth basic_root.node []).bind fun midd =>
  (Postorder_Traverse_BinaryTree basic_root.memory depth basic_root.node []).bind fun post =>
  (BinaryTree_Deep basic_root.memory depth basic_root.node).bind fun deep =>
  (BinaryTree_LeafCount basic_root.memory depth basic_root.node 0).bind fun leaf =>
  (Postorder_Free_BinaryTree allocator depth basic_root.node basic_root.memory).map fun memory =>
  (memory, text pre midd post deep leaf)

/-! ## What it prints and leaves -/

/-- For a tree. -/
def report (tree : BinaryNode) : List Byte :=
  text (preorder tree) (inorder tree) (postorder tree) tree.height (leaves tree)

variable {allocator : Allocator κ (NodeStruct κ) σ} {data : List Int} {depth : Nat}
  {memory : Memory κ (NodeStruct κ) σ} {tree : BinaryNode} {addresses : List κ}

/-- With the tree created, nothing fails any more. -/
theorem binaryMain_of_built {root : Created κ σ}
    (created : Preorder_Create_BinaryTree allocator data depth memory 0 = some root)
    (built : Built (nodeFields κ) memory.heap root.memory.heap root.node tree addresses) (deep : tree.height < depth)
    (low : tree.height < 2 ^ 31) (few : leaves tree < 2 ^ 31) :
    ∃ memory', binaryMain allocator data depth memory = some (memory', report tree) ∧ memory'.heap = memory.heap := by
  obtain ⟨memory', freed, heap⟩ : ∃ memory', Postorder_Free_BinaryTree allocator depth root.node root.memory =
      some memory' ∧ memory'.heap = erase root.memory.heap addresses :=
    Postorder_Free_BinaryTree_of_treeAt built.treeAt built.distinct (fun _ _ => rfl) deep
  refine ⟨memory', ?_, heap.trans built.erase_eq⟩
  have counted : BinaryNodes.BinaryTree_LeafCount tree 0 = some (leaves tree : Int) := by
    rw [BinaryTree_LeafCount_eq tree isInt32_zero, addInt_of_isInt32 (by rw [IsInt32]; omega), Int.zero_add]
  rw [binaryMain, created, Option.bind_some, Preorder_Traverse_BinaryTree, traverse_of_treeAt built.treeAt deep,
    Option.bind_some, Middorder_Traverse_BinaryTree, traverse_of_treeAt built.treeAt deep, Option.bind_some,
    Postorder_Traverse_BinaryTree, traverse_of_treeAt built.treeAt deep, Option.bind_some,
    BinaryTree_Deep_of_treeAt built.treeAt deep low, Option.bind_some,
    BinaryTree_LeafCount_of_treeAt built.treeAt deep, counted, Option.bind_some, freed, Option.map_some,
    visit_preorder, visit_inorder, visit_postorder, Preorder_Traverse_BinaryTree_eq, Middorder_Traverse_BinaryTree_eq,
    Postorder_Traverse_BinaryTree_eq]
  rfl

/-- A tree is smaller than its encoding. -/
theorem small_of_encoded (encoded : encode (-1) tree <+: data) (short : data.length < 2 ^ 31) :
    tree.height < 2 ^ 31 ∧ leaves tree < 2 ^ 31 := by
  have length := encoded.length_le
  have nodes := tree.height_le_numNodes
  have few := leaves_le_length_encode (-1) tree
  have many := numNodes_le_length_encode (-1) tree
  omega

/-- On any heap and for any allocator, a run of the program that comes to its end leaves the heap as it was (each node
is freed once, and nothing else) and has printed the three orders, the height and the leaves of the tree that the data
begins with.  If the data begins with a tree and there is room for its nodes, the program comes to its end: no access
is to a node that is not live. -/
theorem binaryMain_correct (allocator : Allocator κ (NodeStruct κ) σ) (data : List Int) (short : data.length < 2 ^ 31)
    (memory : Memory κ (NodeStruct κ) σ) :
    (∀ depth memory' output, binaryMain allocator data depth memory = some (memory', output) →
      memory'.heap = memory.heap ∧
        ∃ tree : BinaryNode, -1 ∉ labels tree ∧ encode (-1) tree <+: data ∧ output = report tree) ∧
    ∀ tree : BinaryNode, -1 ∉ labels tree → encode (-1) tree <+: data →
      ∀ capacity live, allocator.Provides capacity → Occupies live memory.heap →
        live.length + tree.numNodes ≤ capacity → ∀ depth, tree.height < depth →
          ∃ memory', binaryMain allocator data depth memory = some (memory', report tree) := by
  refine ⟨?_, ?_⟩
  · intro depth memory' output returns
    obtain ⟨root, created, _⟩ := Option.bind_eq_some_iff.mp returns
    obtain ⟨tree, addresses, parsed, deep, built⟩ := createNodes_built created
    obtain ⟨tree', tokens, same, _⟩ := tokens_of_create parsed
    rw [show tree = tree' from same.trans (build_preorder tree')] at deep built
    obtain ⟨low, few⟩ := small_of_encoded tokens.encoded short
    obtain ⟨memory'', returned, restored⟩ := binaryMain_of_built created built deep low few
    rw [returned, Option.some.injEq, Prod.mk.injEq] at returns
    rw [← returns.1, ← returns.2]
    exact ⟨restored, tree', tokens.free, tokens.encoded, rfl⟩
  · intro tree free encoded capacity live provides occupies room depth deep
    have tokens : Tokens data 0 tree := ⟨free, encoded⟩
    have parsed : create Child.left.join data 0 = some (tree, 0 + (encode (-1) tree).length) := by
      rw [create_of_tokens tokens]
      exact congrArg (fun tree => some (tree, _)) (build_preorder tree)
    obtain ⟨root, created⟩ := Option.isSome_iff_exists.mp (createNodes_returns provides occupies parsed room deep)
    obtain ⟨tree', addresses, parsed', deep', built⟩ := createNodes_built created
    rw [parsed, Option.some.injEq, Prod.mk.injEq] at parsed'
    rw [← parsed'.1] at built
    obtain ⟨low, few⟩ := small_of_encoded encoded short
    obtain ⟨memory', returned, _⟩ := binaryMain_of_built created built deep low few
    exact ⟨memory', returned⟩

/-- Another object is live. -/
def occupied : Memory Nat (NodeStruct Nat) Unit where
  heap := fun address => if address = 0 then some ⟨7, none, none⟩ else none
  state := ()

/-- There is room for one more. -/
theorem binaryMain_correct_one :
    ∃ memory', binaryMain (firstFit 2 ⟨0, none, none⟩) [5, -1, -1, 9] 2 occupied =
      some (memory', report (.node 5 .nil .nil)) ∧ memory'.heap = occupied.heap := by
  have occupies : Occupies [0] occupied.heap := by
    intro address content found
    obtain ⟨same, _⟩ := Option.ite_none_right_eq_some.mp found
    exact List.mem_singleton.mpr same
  have correct := binaryMain_correct (firstFit 2 ⟨0, none, none⟩) [5, -1, -1, 9] (by decide) occupied
  obtain ⟨memory', returned⟩ := correct.2 (.node 5 .nil .nil) (by decide) (by decide) 2 [0]
    (firstFit_provides 2 _) occupies (by decide) 2 (by decide)
  exact ⟨memory', returned, (correct.1 2 memory' _ returned).1⟩

end KernelLearning.BinaryNodes.Pointers
