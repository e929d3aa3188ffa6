import KernelLearning.Trees.Orders

/-!
# Traversing binary trees

A `struct binary_node *` is a binary tree with `int` labels, `NULL` the empty one.  A
traversal is its effect on the numbers that are printed.
-/

namespace KernelLearning.BinaryNodes

open Trees

/-- `struct binary_node *`. -/
abbrev BinaryNode := BinaryTree Int

/-! ## The program -/

/-- `printf("%d ", idx)`. -/
def printIdx (idx : Int) (printed : List Int) : List Int := printed ++ [idx]

def Preorder_Traverse_BinaryTree : BinaryNode → List Int → List Int
  | .nil, printed => printed
  | .node idx left right, printed =>
    Preorder_Traverse_BinaryTree right (Preorder_Traverse_BinaryTree left (printIdx idx printed))

def Middorder_Traverse_BinaryTree : BinaryNode → List Int → List Int
  | .nil, printed => printed
  | .node idx left right, printed =>
    Middorder_Traverse_BinaryTree right (printIdx idx (Middorder_Traverse_BinaryTree left printed))

def Postorder_Traverse_BinaryTree : BinaryNode → List Int → List Int
  | .nil, printed => printed
  | .node idx left right, printed =>
    printIdx idx (Postorder_Traverse_BinaryTree right (Postorder_Traverse_BinaryTree left printed))

/-! ## What is printed -/

theorem Preorder_Traverse_BinaryTree_eq (node : BinaryNode) (printed : List Int) :
    Preorder_Traverse_BinaryTree node printed = printed ++ preorder node := by
  induction node generalizing printed with
  | nil => exact (List.append_nil printed).symm
  | node idx left right inductionLeft inductionRight =>
    rw [Preorder_Traverse_BinaryTree, inductionLeft, inductionRight, printIdx, preorder, List.append_assoc,
      List.append_assoc, List.singleton_append]

theorem Middorder_Traverse_BinaryTree_eq (node : BinaryNode) (printed : List Int) :
    Middorder_Traverse_BinaryTree node printed = printed ++ inorder node := by
  induction node generalizing printed with
  | nil => exact (List.append_nil printed).symm
  | node idx left right inductionLeft inductionRight =>
    rw [Middorder_Traverse_BinaryTree, inductionLeft, inductionRight, printIdx, inorder, List.append_assoc,
      List.append_assoc, List.singleton_append]

theorem Postorder_Traverse_BinaryTree_eq (node : BinaryNode) (printed : List Int) :
    Postorder_Traverse_BinaryTree node printed = printed ++ postorder node := by
  induction node generalizing printed with
  | nil => exact (List.append_nil printed).symm
  | node idx left right inductionLeft inductionRight =>
    rw [Postorder_Traverse_BinaryTree, inductionLeft, inductionRight, printIdx, postorder, List.append_assoc,
      List.append_assoc]

/-- Two trees with distinct labels that print the same in preorder and in the middle order are equal, and
each traversal prints the label of every node once. -/
theorem traversals_determine :
    (∀ node node' : BinaryNode, (labels node).Nodup → (labels node').Nodup →
      Preorder_Traverse_BinaryTree node [] = Preorder_Traverse_BinaryTree node' [] →
      Middorder_Traverse_BinaryTree node [] = Middorder_Traverse_BinaryTree node' [] → node = node') ∧
    ∀ node : BinaryNode, (Preorder_Traverse_BinaryTree node [] : Multiset Int) = labels node ∧
      (Middorder_Traverse_BinaryTree node [] : Multiset Int) = labels node ∧
      (Postorder_Traverse_BinaryTree node [] : Multiset Int) = labels node := by
  refine ⟨fun node node' distinct distinct' samePre sameMid => ?_, fun node => ⟨?_, ?_, ?_⟩⟩
  · rw [Preorder_Traverse_BinaryTree_eq, Preorder_Traverse_BinaryTree_eq] at samePre
    rw [Middorder_Traverse_BinaryTree_eq, Middorder_Traverse_BinaryTree_eq] at sameMid
    exact eq_of_preorder_inorder distinct distinct' samePre sameMid
  · rw [Preorder_Traverse_BinaryTree_eq, List.nil_append, coe_preorder]
  · rw [Middorder_Traverse_BinaryTree_eq, List.nil_append, coe_inorder]
  · rw [Postorder_Traverse_BinaryTree_eq, List.nil_append, coe_postorder]

/-- The tree that prints `1 2` in preorder and `2 1` in the middle order. -/
theorem traversals_determine_two :
    (BinaryTree.node 1 (.node 2 .nil .nil) .nil : BinaryNode) = .node 1 (.node 2 .nil .nil) .nil :=
  traversals_determine.1 _ _ (by decide) (by decide) rfl rfl

end KernelLearning.BinaryNodes
