import KernelLearning.BinaryNodes.Traversal

/-!
# Creating binary trees

Both functions read labels from `BinaryTree_data` at a global counter, `-1` for an
empty tree, without a test for the end.  They differ in the child that is created
first.  The result is `none` if a position outside the data is read; a position in
data that is not longer than the largest `int` is one itself.
-/

namespace KernelLearning.BinaryNodes

open Trees

/-! ## The program -/

/-- The recursion, with what a label and the two children in the order of their creation are made of,
and the counter afterwards. -/
def createNodes (join : Int → BinaryNode → BinaryNode → BinaryNode) (data : List Int) (counter : Nat) :
    Option (BinaryNode × { after : Nat // counter < after }) :=
  if inside : counter < data.length then
    if data[counter] = -1 then some (.nil, ⟨counter + 1, Nat.lt_succ_self counter⟩)
    else
      (createNodes join data (counter + 1)).bind fun first =>
        (createNodes join data first.2.1).bind fun second =>
          some (join data[counter] first.1 second.1,
            ⟨second.2.1, Nat.lt_trans (Nat.lt_of_succ_lt first.2.2) second.2.2⟩)
  else none
termination_by data.length - counter
decreasing_by
  · omega
  · have := first.2.2
    omega

/-- The node and `counter` afterwards.  `counter` is an `int` there, so the data has `INT_MAX` items at most. -/
def create (join : Int → BinaryNode → BinaryNode → BinaryNode) (data : List Int) (counter : Nat) :
    Option (BinaryNode × Nat) :=
  (createNodes join data counter).map fun created => (created.1, created.2.1)

/-- The left child is created first. -/
def Preorder_Create_BinaryTree (BinaryTree_data : List Int) (counter : Nat) : Option (BinaryNode × Nat) :=
  create (fun idx left right => .node idx left right) BinaryTree_data counter

/-- The right child is created first. -/
def Postorder_Create_BinaryTree (BinaryTree_data : List Int) (counter : Nat) : Option (BinaryNode × Nat) :=
  create (fun idx right left => .node idx left right) BinaryTree_data counter

/-! ## The grammar -/

variable {join : Int → BinaryNode → BinaryNode → BinaryNode} {data : List Int} {counter after : Nat} {node : BinaryNode}

theorem create_eq (join : Int → BinaryNode → BinaryNode → BinaryNode) (data : List Int) (counter : Nat) :
    create join data counter =
      if inside : counter < data.length then
        if data[counter] = -1 then some (.nil, counter + 1)
        else
          (create join data (counter + 1)).bind fun first =>
            (create join data first.2).bind fun second => some (join data[counter] first.1 second.1, second.2)
      else none := by
  rw [create, createNodes]
  split
  · split
    · rfl
    · simp only [create, Option.map_bind, Option.bind_map, Function.comp_def, Option.map_some]
  · rfl

theorem create_advances (created : create join data counter = some (node, after)) : counter < after := by
  obtain ⟨result, _, same⟩ := Option.map_eq_some_iff.mp created
  rw [Prod.mk.injEq] at same
  rw [← same.2]
  exact result.2.2

/-- What is created of the nodes of a tree whose children are joined in the order they are read. -/
def build (join : Int → BinaryNode → BinaryNode → BinaryNode) : BinaryNode → BinaryNode
  | .nil => .nil
  | .node idx first second => join idx (build join first) (build join second)

/-- The tokens from the counter on begin with the encoding of a tree that does not have the label `-1`. -/
structure Tokens (data : List Int) (counter : Nat) (tree : BinaryNode) : Prop where
  free : -1 ∉ labels tree
  encoded : encode (-1) tree <+: data.drop counter

/-- The token at the counter, and those behind it. -/
theorem cons_prefix_drop {token : Int} {tokens : List Int} :
    token :: tokens <+: data.drop counter ↔
      (∃ inside : counter < data.length, data[counter] = token) ∧ tokens <+: data.drop (counter + 1) := by
  by_cases inside : counter < data.length
  · rw [List.drop_eq_getElem_cons inside, List.cons_prefix_cons]
    refine and_congr_left fun _ => ⟨fun same => ⟨inside, same.symm⟩, fun found => ?_⟩
    obtain ⟨_, same⟩ := found
    exact same.symm
  · rw [List.drop_of_length_le (Nat.not_lt.mp inside), List.prefix_nil]
    refine ⟨fun none => absurd none (List.cons_ne_nil _ _), fun found => ?_⟩
    obtain ⟨⟨inside', _⟩, _⟩ := found
    exact absurd inside' inside

/-- Two parts of the tokens, one behind the other. -/
theorem append_prefix_drop {first second : List Int} :
    first ++ second <+: data.drop counter ↔
      first <+: data.drop counter ∧ second <+: data.drop (counter + first.length) := by
  rw [← List.drop_drop]
  generalize data.drop counter = tokens
  refine ⟨fun whole => ⟨(List.prefix_append _ _).trans whole, ?_⟩, fun parts => ?_⟩
  · obtain ⟨rest, same⟩ := whole
    rw [← same, List.append_assoc, List.drop_left]
    exact List.prefix_append _ _
  · obtain ⟨⟨rest, same⟩, behind⟩ := parts
    rw [← same, List.drop_left] at behind
    rw [← same]
    exact (List.prefix_append_right_inj first).mpr behind

theorem tokens_nil : Tokens data counter .nil ↔ ∃ inside : counter < data.length, data[counter] = -1 := by
  refine ⟨fun tokens => (cons_prefix_drop.mp tokens.encoded).1, fun found => ⟨Multiset.notMem_zero _, ?_⟩⟩
  exact cons_prefix_drop.mpr ⟨found, List.nil_prefix⟩

/-- The tokens of a node are its label, those of the first child and those of the second. -/
theorem tokens_node {idx : Int} {first second : BinaryNode} :
    Tokens data counter (.node idx first second) ↔
      (∃ inside : counter < data.length, data[counter] = idx) ∧ idx ≠ -1 ∧ Tokens data (counter + 1) first ∧
        Tokens data (counter + 1 + (encode (-1) first).length) second := by
  refine ⟨fun tokens => ?_, fun parts => ?_⟩
  · obtain ⟨found, rest⟩ := cons_prefix_drop.mp tokens.encoded
    obtain ⟨encodedFirst, encodedSecond⟩ := append_prefix_drop.mp rest
    have free := tokens.free
    rw [labels, Multiset.mem_cons, Multiset.mem_add, not_or, not_or] at free
    exact ⟨found, Ne.symm free.1, ⟨free.2.1, encodedFirst⟩, ⟨free.2.2, encodedSecond⟩⟩
  · obtain ⟨found, other, tokensFirst, tokensSecond⟩ := parts
    refine ⟨?_, cons_prefix_drop.mpr ⟨found, append_prefix_drop.mpr ⟨tokensFirst.encoded, tokensSecond.encoded⟩⟩⟩
    rw [labels, Multiset.mem_cons, Multiset.mem_add, not_or, not_or]
    exact ⟨Ne.symm other, tokensFirst.free, tokensSecond.free⟩

/-- Induction on the tree: what follows its tokens does not matter. -/
theorem create_of_tokens {tree : BinaryNode} (tokens : Tokens data counter tree) :
    create join data counter = some (build join tree, counter + (encode (-1) tree).length) := by
  induction tree generalizing counter with
  | nil =>
    obtain ⟨inside, stop⟩ := tokens_nil.mp tokens
    rw [create_eq, dif_pos inside, if_pos stop]
    rfl
  | node idx first second inductionFirst inductionSecond =>
    obtain ⟨⟨inside, found⟩, other, tokensFirst, tokensSecond⟩ := tokens_node.mp tokens
    rw [create_eq, dif_pos inside, found, if_neg other, inductionFirst tokensFirst, Option.bind_some,
      inductionSecond tokensSecond, Option.bind_some, build, encode, List.length_cons, List.length_append]
    congr 2
    omega

/-- What is created is created from the tokens of a tree. -/
theorem tokens_of_create (created : create join data counter = some (node, after)) :
    ∃ tree, Tokens data counter tree ∧ node = build join tree ∧ after = counter + (encode (-1) tree).length := by
  -- induction on the number of tokens that are left
  generalize left : data.length - counter = count
  induction count using Nat.strong_induction_on generalizing counter node after with
  | _ count inductionHypothesis =>
    rw [create_eq] at created
    split at created
    · rename_i inside
      split at created
      · rename_i stop
        rw [Option.some.injEq, Prod.mk.injEq] at created
        exact ⟨.nil, tokens_nil.mpr ⟨inside, stop⟩, created.1.symm, created.2.symm⟩
      · rename_i other
        obtain ⟨⟨first, middle⟩, createdFirst, created⟩ := Option.bind_eq_some_iff.mp created
        obtain ⟨⟨second, last⟩, createdSecond, created⟩ := Option.bind_eq_some_iff.mp created
        rw [Option.some.injEq, Prod.mk.injEq] at created
        have further := create_advances createdFirst
        obtain ⟨treeFirst, tokensFirst, builtFirst, afterFirst⟩ :=
          inductionHypothesis (data.length - (counter + 1)) (by omega) createdFirst rfl
        obtain ⟨treeSecond, tokensSecond, builtSecond, afterSecond⟩ :=
          inductionHypothesis (data.length - middle) (by omega) createdSecond rfl
        rw [afterFirst] at tokensSecond
        refine ⟨.node data[counter] treeFirst treeSecond,
          tokens_node.mpr ⟨⟨inside, rfl⟩, other, tokensFirst, tokensSecond⟩, ?_, ?_⟩
        · rw [← created.1, build, builtFirst, builtSecond]
        · rw [← created.2, encode, List.length_cons, List.length_append]
          simp only at afterSecond
          omega
    · cases created

/-! ## Both orders -/

theorem build_preorder (tree : BinaryNode) : build (fun idx left right => .node idx left right) tree = tree := by
  induction tree with
  | nil => rfl
  | node idx left right inductionLeft inductionRight => rw [build, inductionLeft, inductionRight]

theorem build_postorder (tree : BinaryNode) :
    build (fun idx right left => .node idx left right) tree = mirror tree := by
  induction tree with
  | nil => rfl
  | node idx left right inductionLeft inductionRight => rw [build, inductionLeft, inductionRight, mirror]

/-- The tokens that are consumed. -/
theorem Tokens.consumed {tree : BinaryNode} (tokens : Tokens data counter tree) :
    (data.drop counter).take (encode (-1) tree).length = encode (-1) tree :=
  (List.prefix_iff_eq_take.mp tokens.encoded).symm

/-- `Preorder_Create_BinaryTree` stays inside the data exactly if a tree without the label `-1` is encoded
there; it returns this tree and has consumed its encoding. -/
theorem Preorder_Create_BinaryTree_parses (data : List Int) (counter : Nat) :
    ((Preorder_Create_BinaryTree data counter).isSome ↔
      ∃ tree : BinaryNode, -1 ∉ labels tree ∧ encode (-1) tree <+: data.drop counter) ∧
    (∀ tree : BinaryNode, -1 ∉ labels tree → encode (-1) tree <+: data.drop counter →
      Preorder_Create_BinaryTree data counter = some (tree, counter + (encode (-1) tree).length)) ∧
    ∀ node after, Preorder_Create_BinaryTree data counter = some (node, after) →
      encode (-1) node = (data.drop counter).take (after - counter) := by
  have returns : ∀ tree : BinaryNode, Tokens data counter tree →
      Preorder_Create_BinaryTree data counter = some (tree, counter + (encode (-1) tree).length) := by
    intro tree tokens
    rw [Preorder_Create_BinaryTree, create_of_tokens tokens, build_preorder]
  refine ⟨⟨fun created => ?_, fun encoded => ?_⟩, fun tree free encoded => returns tree ⟨free, encoded⟩,
    fun node after created => ?_⟩
  · obtain ⟨⟨node, after⟩, created⟩ := Option.isSome_iff_exists.mp created
    obtain ⟨tree, tokens, _, _⟩ := tokens_of_create created
    exact ⟨tree, tokens.free, tokens.encoded⟩
  · obtain ⟨tree, free, encoded⟩ := encoded
    rw [returns tree ⟨free, encoded⟩]
    rfl
  · -- the tree the tokens were created from is the one returned
    obtain ⟨tree, tokens, built, last⟩ := tokens_of_create created
    rw [built, build_preorder, last, Nat.add_sub_cancel_left, tokens.consumed]

/-- What stands behind the tokens of the node is not read. -/
theorem Preorder_Create_BinaryTree_parses_five :
    Preorder_Create_BinaryTree [5, -1, -1, 9] 0 = some (.node 5 .nil .nil, 3) :=
  (Preorder_Create_BinaryTree_parses [5, -1, -1, 9] 0).2.1 (.node 5 .nil .nil) (by decide) (by decide)

/-- On the same tokens `Postorder_Create_BinaryTree` consumes the same and returns the mirror image, whose
postorder is the reverse of what is consumed without `-1`, and of the preorder of the tree. -/
theorem Postorder_Create_BinaryTree_mirrors {data : List Int} {counter : Nat} {node : BinaryNode} {after : Nat}
    (stays : Preorder_Create_BinaryTree data counter = some (node, after)) :
    Postorder_Create_BinaryTree data counter = some (mirror node, after) ∧
    Postorder_Traverse_BinaryTree (mirror node) [] =
      (((data.drop counter).take (after - counter)).filter fun token => decide (token ≠ -1)).reverse ∧
    Postorder_Traverse_BinaryTree (mirror node) [] = (Preorder_Traverse_BinaryTree node []).reverse := by
  obtain ⟨tree, tokens, built, last⟩ := tokens_of_create stays
  rw [build_preorder] at built
  subst built
  refine ⟨?_, ?_, ?_⟩
  · rw [Postorder_Create_BinaryTree, create_of_tokens tokens, build_postorder, last]
  · rw [last, Nat.add_sub_cancel_left, tokens.consumed, filter_encode tokens.free, Postorder_Traverse_BinaryTree_eq,
      List.nil_append, postorder_mirror]
  · rw [Postorder_Traverse_BinaryTree_eq, List.nil_append, postorder_mirror, Preorder_Traverse_BinaryTree_eq,
      List.nil_append]

theorem Postorder_Create_BinaryTree_mirrors_five :
    Postorder_Create_BinaryTree [5, 6, -1, -1, -1, 9] 0 = some (.node 5 .nil (.node 6 .nil .nil), 5) ∧
    Postorder_Traverse_BinaryTree (.node 5 .nil (.node 6 .nil .nil)) [] = [6, 5] ∧
    Postorder_Traverse_BinaryTree (.node 5 .nil (.node 6 .nil .nil)) [] = [5, 6].reverse :=
  Postorder_Create_BinaryTree_mirrors
    (create_of_tokens (⟨by decide, by decide⟩ : Tokens [5, 6, -1, -1, -1, 9] 0 (.node 5 (.node 6 .nil .nil) .nil)))

end KernelLearning.BinaryNodes
