import Mathlib.Data.Multiset.AddSub
import Mathlib.Data.Tree.Basic

/-!
# Orders of the labels of a binary tree

The three depth-first orders, the mirror image, and the preorder encoding in which a
label that no node has stands for an empty tree.  Preorder and inorder together
determine a tree with distinct labels: the root splits the inorder sequence, and the
length of the left part splits the rest of the preorder one.
-/

namespace KernelLearning.Trees

variable {α : Type}

def preorder : BinaryTree α → List α
  | .nil => []
  | .node x left right => x :: (preorder left ++ preorder right)

def inorder : BinaryTree α → List α
  | .nil => []
  | .node x left right => inorder left ++ x :: inorder right

def postorder : BinaryTree α → List α
  | .nil => []
  | .node x left right => postorder left ++ (postorder right ++ [x])

/-- The labels of all nodes, each as often as there are nodes with it. -/
def labels : BinaryTree α → Multiset α
  | .nil => 0
  | .node x left right => x ::ₘ (labels left + labels right)

def mirror : BinaryTree α → BinaryTree α
  | .nil => .nil
  | .node x left right => .node x (mirror right) (mirror left)

/-- The labels in preorder, with `stop` for each empty tree. -/
def encode (stop : α) : BinaryTree α → List α
  | .nil => [stop]
  | .node x left right => x :: (encode stop left ++ encode stop right)

/-- The number of nodes without children. -/
def leaves : BinaryTree α → Nat
  | .nil => 0
  | .node _ .nil .nil => 1
  | .node _ left right => leaves left + leaves right

/-! ## Every label once -/

theorem coe_preorder (tree : BinaryTree α) : (preorder tree : Multiset α) = labels tree := by
  induction tree with
  | nil => rfl
  | node x left right inductionLeft inductionRight =>
    rw [preorder, labels, ← inductionLeft, ← inductionRight, Multiset.coe_add, Multiset.cons_coe]

theorem coe_inorder (tree : BinaryTree α) : (inorder tree : Multiset α) = labels tree := by
  induction tree with
  | nil => rfl
  | node x left right inductionLeft inductionRight =>
    rw [inorder, labels, ← inductionLeft, ← inductionRight, Multiset.coe_add, Multiset.cons_coe]
    exact Multiset.coe_eq_coe.mpr List.perm_middle

theorem coe_postorder (tree : BinaryTree α) : (postorder tree : Multiset α) = labels tree := by
  induction tree with
  | nil => rfl
  | node x left right inductionLeft inductionRight =>
    rw [postorder, labels, ← inductionLeft, ← inductionRight, Multiset.coe_add, Multiset.cons_coe, ← List.append_assoc]
    exact Multiset.coe_eq_coe.mpr (List.perm_append_singleton x _)

theorem length_inorder (tree : BinaryTree α) : (inorder tree).length = (preorder tree).length := by
  rw [← Multiset.coe_card, ← Multiset.coe_card, coe_inorder, coe_preorder]

/-! ## The mirror image -/

theorem postorder_mirror (tree : BinaryTree α) : postorder (mirror tree) = (preorder tree).reverse := by
  induction tree with
  | nil => rfl
  | node x left right inductionLeft inductionRight =>
    rw [mirror, postorder, preorder, inductionLeft, inductionRight, List.reverse_cons, List.reverse_append,
      List.append_assoc]

/-! ## The encoding -/

/-- The labels are what is in the encoding besides the stop. -/
theorem filter_encode [DecidableEq α] {stop : α} {tree : BinaryTree α} (free : stop ∉ labels tree) :
    (encode stop tree).filter (fun x => decide (x ≠ stop)) = preorder tree := by
  induction tree with
  | nil => simp [encode, preorder]
  | node x left right inductionLeft inductionRight =>
    rw [labels, Multiset.mem_cons, Multiset.mem_add, not_or, not_or] at free
    obtain ⟨other, freeLeft, freeRight⟩ := free
    rw [encode, List.filter_cons, if_pos (decide_eq_true (Ne.symm other)), List.filter_append,
      inductionLeft freeLeft, inductionRight freeRight, preorder]

/-! ## Preorder and inorder together -/

/-- A list without the element before it is split at one place only. -/
theorem split_unique {x : α} {before before' after after' : List α} (notBefore : x ∉ before) (notBefore' : x ∉ before')
    (same : before ++ x :: after = before' ++ x :: after') : before = before' ∧ after = after' := by
  -- a longer part before the element would begin with it
  induction before generalizing before' with
  | nil =>
    cases before' with
    | nil => exact ⟨rfl, (List.cons.inj same).2⟩
    | cons y before' =>
      rw [List.nil_append, List.cons_append] at same
      exact absurd (List.mem_cons.mpr (.inl (List.cons.inj same).1)) notBefore'
  | cons y before inductionHypothesis =>
    cases before' with
    | nil =>
      rw [List.nil_append, List.cons_append] at same
      exact absurd (List.mem_cons.mpr (.inl (List.cons.inj same).1.symm)) notBefore
    | cons z before' =>
      rw [List.cons_append, List.cons_append] at same
      obtain ⟨sameHead, sameTail⟩ := List.cons.inj same
      rw [List.mem_cons, not_or] at notBefore notBefore'
      obtain ⟨sameBefore, sameAfter⟩ := inductionHypothesis notBefore.2 notBefore'.2 sameTail
      exact ⟨by rw [sameHead, sameBefore], sameAfter⟩

/-- A label of the root is in neither subtree when the labels are distinct. -/
theorem root_not_mem {x : α} {left right : BinaryTree α} (distinct : (labels (.node x left right)).Nodup) :
    x ∉ inorder left ∧ (labels left).Nodup ∧ (labels right).Nodup := by
  rw [labels, Multiset.nodup_cons, Multiset.mem_add, not_or] at distinct
  obtain ⟨⟨notLeft, _⟩, rest⟩ := distinct
  refine ⟨fun member => notLeft ?_, Multiset.nodup_of_le (Multiset.le_add_right _ _) rest,
    Multiset.nodup_of_le (Multiset.le_add_left _ _) rest⟩
  rw [← coe_inorder]
  exact Multiset.mem_coe.mpr member

theorem eq_of_preorder_inorder {tree tree' : BinaryTree α} (distinct : (labels tree).Nodup)
    (distinct' : (labels tree').Nodup) (samePre : preorder tree = preorder tree')
    (sameIn : inorder tree = inorder tree') : tree = tree' := by
  induction tree generalizing tree' with
  | nil =>
    cases tree' with
    | nil => rfl
    | node y left' right' => exact absurd samePre (List.cons_ne_nil _ _).symm
  | node x left right inductionLeft inductionRight =>
    cases tree' with
    | nil => exact absurd samePre (List.cons_ne_nil _ _)
    | node y left' right' =>
      rw [preorder, preorder, List.cons.injEq] at samePre
      obtain ⟨root, rest⟩ := samePre
      subst root
      obtain ⟨notLeft, distinctLeft, distinctRight⟩ := root_not_mem distinct
      obtain ⟨notLeft', distinctLeft', distinctRight'⟩ := root_not_mem distinct'
      rw [inorder, inorder] at sameIn
      obtain ⟨inLeft, inRight⟩ := split_unique notLeft notLeft' sameIn
      -- the left parts have the same length, so the rest of the preorder splits at one place
      have length : (preorder left).length = (preorder left').length := by
        rw [← length_inorder, ← length_inorder, inLeft]
      obtain ⟨preLeft, preRight⟩ := List.append_inj rest length
      rw [inductionLeft distinctLeft distinctLeft' preLeft inLeft,
        inductionRight distinctRight distinctRight' preRight inRight]

/-! ## Leaves -/

theorem leaves_node (x : α) {left right : BinaryTree α} (inner : ¬ (left = .nil ∧ right = .nil)) :
    leaves (.node x left right) = leaves left + leaves right := by
  cases left with
  | nil =>
    cases right with
    | nil => exact absurd ⟨rfl, rfl⟩ inner
    | node y left' right' => rfl
  | node y left' right' => rfl

theorem leaves_pos {tree : BinaryTree α} (nonempty : tree ≠ .nil) : 0 < leaves tree := by
  induction tree with
  | nil => exact absurd rfl nonempty
  | node x left right inductionLeft inductionRight =>
    by_cases leaf : left = .nil ∧ right = .nil
    · rw [leaf.1, leaf.2]
      exact Nat.one_pos
    · rw [leaves_node x leaf]
      by_cases empty : left = .nil
      · exact Nat.add_pos_right _ (inductionRight fun none => leaf ⟨empty, none⟩)
      · exact Nat.add_pos_left (inductionLeft empty) _

/-! ## Sizes -/

theorem numNodes_le_length_encode (stop : α) (tree : BinaryTree α) : tree.numNodes ≤ (encode stop tree).length := by
  induction tree with
  | nil => exact Nat.zero_le _
  | node x left right inductionLeft inductionRight =>
    rw [BinaryTree.numNodes, encode, List.length_cons, List.length_append]
    omega

theorem leaves_le_length_encode (stop : α) (tree : BinaryTree α) : leaves tree ≤ (encode stop tree).length := by
  induction tree with
  | nil => exact Nat.zero_le _
  | node x left right inductionLeft inductionRight =>
    rw [encode, List.length_cons, List.length_append]
    by_cases leaf : left = .nil ∧ right = .nil
    · rw [leaf.1, leaf.2]
      exact Nat.succ_pos _
    · rw [leaves_node x leaf]
      omega

end KernelLearning.Trees
