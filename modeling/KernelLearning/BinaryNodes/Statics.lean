import Mathlib.Data.List.Forall2
import Mathlib.Algebra.BigOperators.Group.Multiset.Basic
import KernelLearning.BinaryNodes.Traversal
import KernelLearning.CSemantics.Word

/-!
# Static accumulators

`BinaryTree_LeafCount` and `calculate_tree` add to a variable that is static in the
function: the recursive calls share it, and so do all later calls.  A function is its
effect on the static variable, which is what it returns (`calculate_tree` returns
nothing for an empty tree); it is `none` if the variable overflows.
-/

namespace KernelLearning.BinaryNodes

open CSemantics Trees

/-! ## The programs -/

def BinaryTree_LeafCount : BinaryNode → Int → Option Int
  | .nil, count => some count
  | .node _ left right, count =>
    (if left = .nil ∧ right = .nil then addInt count 1 else some count).bind fun count =>
      (BinaryTree_LeafCount left count).bind fun count => BinaryTree_LeafCount right count

def calculate_tree : BinaryNode → Int → Option Int
  | .nil, result => some result
  | .node data left right, result =>
    (addInt result data).bind fun result =>
      (calculate_tree left result).bind fun result => calculate_tree right result

/-- The static variable after each of a sequence of top-level calls, of which each finds it as the one
before has left it. -/
def callAll (function : BinaryNode → Int → Option Int) : List BinaryNode → Int → Option (List Int)
  | [], _ => some []
  | node :: nodes, static =>
    (function node static).bind fun static => (callAll function nodes static).map (static :: ·)

/-! ## Leaves -/

variable {node : BinaryNode} {nodes : List BinaryNode} {count result : Int}

theorem isInt32_zero : IsInt32 0 := by
  rw [IsInt32]
  omega

/-- Adding twice, when what is added is not negative. -/
theorem addInt_bind_addInt (inside : IsInt32 count) (x y : Nat) :
    ((addInt count x).bind fun sum => addInt sum y) = addInt count ((x + y : Nat) : Int) := by
  by_cases fits : IsInt32 (count + ((x + y : Nat) : Int))
  · -- the first sum lies between two that fit
    have fitsFirst : IsInt32 (count + x) := by
      rw [IsInt32] at inside fits ⊢
      omega
    have fitsSecond : IsInt32 (count + x + y) := by
      rw [IsInt32] at fits ⊢
      omega
    rw [addInt_of_isInt32 fitsFirst, Option.bind_some, addInt_of_isInt32 fitsSecond, addInt_of_isInt32 fits,
      Int.natCast_add, Int.add_assoc]
  · rw [addInt_eq_none fits]
    cases first : addInt count x with
    | none => rfl
    | some sum =>
      rw [Option.bind_some, (addInt_eq_some_iff.mp first).2]
      refine addInt_eq_none fun fitsSecond => fits ?_
      rw [Int.natCast_add, ← Int.add_assoc]
      exact fitsSecond

/-- A call adds the leaves of its tree. -/
theorem BinaryTree_LeafCount_eq (node : BinaryNode) (inside : IsInt32 count) :
    BinaryTree_LeafCount node count = addInt count (leaves node : Nat) := by
  induction node generalizing count with
  | nil =>
    have same : count + ((0 : Nat) : Int) = count := Int.add_zero count
    rw [BinaryTree_LeafCount, leaves, addInt_of_isInt32 (by rw [same]; exact inside), same]
  | node idx left right inductionLeft inductionRight =>
    rw [BinaryTree_LeafCount]
    by_cases leaf : left = .nil ∧ right = .nil
    · rw [if_pos leaf, leaf.1, leaf.2]
      simp only [BinaryTree_LeafCount, Option.bind_fun_some]
      rfl
    · rw [if_neg leaf, Option.bind_some, inductionLeft inside, leaves_node idx leaf, ← addInt_bind_addInt inside]
      refine Option.bind_congr fun sum added => inductionRight ?_
      rw [(addInt_eq_some_iff.mp added).2]
      exact (addInt_eq_some_iff.mp added).1

/-- The values of further calls behind the one of the first. -/
theorem map_cons_eq_some_iff {x : Int} {rest : List Int} {values : Option (List Int)} :
    values.map (x :: ·) = some (x :: rest) ↔ values = some rest := by
  cases values with
  | none => simp
  | some list => simp

/-- With the static variable at a positive value no call returns the leaves of its tree. -/
theorem leafCounts_of_pos (positive : 0 < count) (inside : IsInt32 count) :
    callAll BinaryTree_LeafCount nodes count = some (nodes.map fun node => (leaves node : Int)) ↔ nodes = [] := by
  cases nodes with
  | nil => exact ⟨fun _ => rfl, fun _ => rfl⟩
  | cons node nodes =>
    refine ⟨fun returns => ?_, fun none => absurd none (List.cons_ne_nil _ _)⟩
    rw [callAll, BinaryTree_LeafCount_eq node inside] at returns
    obtain ⟨sum, added, values⟩ := Option.bind_eq_some_iff.mp returns
    obtain ⟨rest, _, same⟩ := Option.map_eq_some_iff.mp values
    rw [List.map_cons, List.cons.injEq, (addInt_eq_some_iff.mp added).2] at same
    have := same.1
    omega

/-- Every call returns the leaves of its own tree exactly if all trees before the last one are empty. -/
theorem leafCounts_iff :
    callAll BinaryTree_LeafCount nodes 0 = some (nodes.map fun node => (leaves node : Int)) ↔
      (∀ node ∈ nodes.dropLast, node = .nil) ∧ ∀ node ∈ nodes, leaves node < 2 ^ 31 := by
  induction nodes with
  | nil => simp [callAll]
  | cons node nodes inductionHypothesis =>
    rw [callAll, BinaryTree_LeafCount_eq node isInt32_zero, List.map_cons, List.forall_mem_cons]
    by_cases fits : leaves node < 2 ^ 31
    · have sum : addInt 0 (leaves node) = some (leaves node : Int) :=
        addInt_eq_some_iff.mpr ⟨by rw [IsInt32]; omega, (Int.zero_add _).symm⟩
      rw [sum, Option.bind_some, map_cons_eq_some_iff]
      by_cases empty : node = .nil
      · rw [empty, leaves, Int.natCast_zero, inductionHypothesis]
        cases nodes with
        | nil => simp
        | cons next nodes =>
          rw [List.dropLast_cons_cons, List.forall_mem_cons]
          simp
      · -- the variable stays positive, so there is no further call
        rw [leafCounts_of_pos (Int.natCast_pos.mpr (leaves_pos empty)) (by rw [IsInt32]; omega)]
        cases nodes with
        | nil => simpa using fits
        | cons next nodes =>
          rw [List.dropLast_cons_cons, List.forall_mem_cons]
          simp [empty]
    · have none : addInt 0 (leaves node) = none := addInt_eq_none (by rw [IsInt32]; omega)
      rw [none, Option.bind_none]
      refine ⟨fun returns => (Option.some_ne_none _ returns.symm).elim, fun both => absurd both.2.1 fits⟩

/-! ## Sums -/

/-- The sums of `calculate_tree`, one after the other. -/
def addAll : List Int → Int → Option Int
  | [], result => some result
  | data :: rest, result => (addInt result data).bind (addAll rest)

theorem addAll_append (first second : List Int) (result : Int) :
    addAll (first ++ second) result = (addAll first result).bind (addAll second) := by
  induction first generalizing result with
  | nil => rfl
  | cons data rest inductionHypothesis =>
    rw [List.cons_append, addAll, addAll, Option.bind_assoc]
    exact Option.bind_congr fun sum _ => inductionHypothesis sum

theorem calculate_tree_eq (node : BinaryNode) (result : Int) :
    calculate_tree node result = addAll (preorder node) result := by
  induction node generalizing result with
  | nil => rfl
  | node data left right inductionLeft inductionRight =>
    rw [calculate_tree, preorder, addAll]
    refine Option.bind_congr fun sum _ => ?_
    rw [addAll_append, inductionLeft]
    exact Option.bind_congr fun sum _ => inductionRight sum

/-- The sums succeed when each of them, from the front of the list on, is an `int`. -/
theorem addAll_eq_some_iff {list : List Int} {sum : Int} (inside : IsInt32 result) :
    addAll list result = some sum ↔
      (∀ front, front <+: list → IsInt32 (result + front.sum)) ∧ sum = result + list.sum := by
  induction list generalizing result with
  | nil =>
    simp only [addAll, List.prefix_nil, forall_eq, List.sum_nil, Int.add_zero, Option.some.injEq]
    exact ⟨fun same => ⟨inside, same.symm⟩, fun both => both.2.symm⟩
  | cons data rest inductionHypothesis =>
    rw [addAll]
    by_cases fits : IsInt32 (result + data)
    · rw [addInt_of_isInt32 fits, Option.bind_some, inductionHypothesis fits, List.sum_cons, ← Int.add_assoc]
      -- a front of the list is empty, or the first element before a front of the rest
      refine and_congr_left fun _ => ⟨fun further front before => ?_, fun all front before => ?_⟩
      · cases front with
        | nil => rwa [List.sum_nil, Int.add_zero]
        | cons first front =>
          obtain ⟨same, before⟩ := List.cons_prefix_cons.mp before
          rw [same, List.sum_cons, ← Int.add_assoc]
          exact further front before
      · have one := all (data :: front) (List.cons_prefix_cons.mpr ⟨rfl, before⟩)
        rwa [List.sum_cons, ← Int.add_assoc] at one
    · rw [addInt_eq_none fits, Option.bind_none]
      refine ⟨fun none => (Option.some_ne_none _ none.symm).elim, fun both => absurd ?_ fits⟩
      have one := both.1 [data] (List.cons_prefix_cons.mpr ⟨rfl, List.nil_prefix⟩)
      rwa [List.sum_cons, List.sum_nil, Int.add_zero] at one

def labelSum (node : BinaryNode) : Int := (labels node).sum

theorem labelSum_eq (node : BinaryNode) : labelSum node = (preorder node).sum := by
  rw [labelSum, ← coe_preorder, Multiset.sum_coe]

/-- Each call on a tree that is not empty returns the sum of its labels. -/
def Sums (nodes : List BinaryNode) (values : List Int) : Prop :=
  List.Forall₂ (fun node value => node ≠ .nil → value = labelSum node) nodes values

/-- With the static variable at the value, the labels of all trees before one that is not empty bring it to
zero, and from there on no sum overflows. -/
def Balanced (result : Int) (nodes : List BinaryNode) : Prop :=
  ∀ before node after, nodes = before ++ node :: after → node ≠ .nil →
    result + (before.map labelSum).sum = 0 ∧ ∀ front, front <+: preorder node → IsInt32 front.sum

theorem balanced_cons :
    Balanced result (node :: nodes) ↔
      (node ≠ .nil → result = 0 ∧ ∀ front, front <+: preorder node → IsInt32 front.sum) ∧
        Balanced (result + labelSum node) nodes := by
  refine ⟨fun balanced => ⟨fun nonempty => ?_, fun before other after split nonempty => ?_⟩, fun parts => ?_⟩
  · obtain ⟨zero, fits⟩ := balanced [] node nodes rfl nonempty
    rw [List.map_nil, List.sum_nil, Int.add_zero] at zero
    exact ⟨zero, fits⟩
  · obtain ⟨zero, fits⟩ := balanced (node :: before) other after (by rw [split, List.cons_append]) nonempty
    rw [List.map_cons, List.sum_cons, ← Int.add_assoc] at zero
    exact ⟨zero, fits⟩
  · -- the tree is the first one or a later one
    intro before other after split nonempty
    cases before with
    | nil =>
      obtain ⟨same, _⟩ := List.cons.inj split
      rw [← same] at nonempty ⊢
      rw [List.map_nil, List.sum_nil, Int.add_zero]
      exact parts.1 nonempty
    | cons first before =>
      obtain ⟨same, rest⟩ := List.cons.inj split
      rw [List.map_cons, List.sum_cons, ← same, ← Int.add_assoc]
      exact parts.2 before other after rest nonempty

/-- The first call, and the further ones with what it has left. -/
theorem exists_sums_cons (function : BinaryNode → Int → Option Int) :
    (∃ values, callAll function (node :: nodes) result = some values ∧ Sums (node :: nodes) values) ↔
      ∃ sum, function node result = some sum ∧ (node ≠ .nil → sum = labelSum node) ∧
        ∃ values, callAll function nodes sum = some values ∧ Sums nodes values := by
  refine ⟨fun returns => ?_, fun parts => ?_⟩
  · obtain ⟨values, called, sums⟩ := returns
    obtain ⟨sum, first, others⟩ := Option.bind_eq_some_iff.mp called
    obtain ⟨rest, further, same⟩ := Option.map_eq_some_iff.mp others
    rw [← same] at sums
    obtain ⟨own, sumsRest⟩ := List.forall₂_cons.mp sums
    exact ⟨sum, first, own, rest, further, sumsRest⟩
  · obtain ⟨sum, first, own, rest, further, sumsRest⟩ := parts
    refine ⟨sum :: rest, ?_, List.forall₂_cons.mpr ⟨own, sumsRest⟩⟩
    rw [callAll, first, Option.bind_some, further, Option.map_some]

/-- Every call on a tree that is not empty returns the sum of its own labels exactly if the sequence is balanced. -/
theorem sums_iff (inside : IsInt32 result) :
    (∃ values, callAll calculate_tree nodes result = some values ∧ Sums nodes values) ↔ Balanced result nodes := by
  induction nodes generalizing result with
  | nil =>
    refine ⟨fun _ before node after split => ?_, fun _ => ⟨[], rfl, .nil⟩⟩
    exact absurd split (by simp)
  | cons node nodes inductionHypothesis =>
    rw [exists_sums_cons, balanced_cons]
    by_cases empty : node = .nil
    · -- an empty tree leaves the variable as it is
      have zero : labelSum .nil = 0 := rfl
      rw [empty, zero, Int.add_zero, ← inductionHypothesis inside]
      refine ⟨fun parts => ?_, fun parts => ⟨result, rfl, fun nonempty => absurd rfl nonempty, parts.2⟩⟩
      obtain ⟨sum, same, _, further⟩ := parts
      rw [calculate_tree, Option.some.injEq] at same
      rw [same]
      exact ⟨fun nonempty => absurd rfl nonempty, further⟩
    · refine ⟨fun parts => ?_, fun parts => ?_⟩
      · obtain ⟨sum, called, own, further⟩ := parts
        rw [calculate_tree_eq] at called
        obtain ⟨fits, total⟩ := (addAll_eq_some_iff inside).mp called
        have zero : result = 0 := by
          have mine := own empty
          rw [labelSum_eq] at mine
          omega
        have insideSum : IsInt32 sum := by
          rw [total]
          exact fits _ (List.prefix_refl _)
        refine ⟨fun _ => ⟨zero, fun front before => ?_⟩, ?_⟩
        · have one := fits front before
          rwa [zero, Int.zero_add] at one
        · rw [labelSum_eq, ← total]
          exact (inductionHypothesis insideSum).mp further
      · obtain ⟨zero, fits⟩ := parts.1 empty
        have further := parts.2
        rw [zero, Int.zero_add] at further
        have called : calculate_tree node result = some (labelSum node) := by
          rw [calculate_tree_eq]
          refine (addAll_eq_some_iff inside).mpr ⟨fun front before => ?_, ?_⟩
          · rw [zero, Int.zero_add]
            exact fits front before
          · rw [zero, Int.zero_add, labelSum_eq]
        have insideSum : IsInt32 (labelSum node) := by
          rw [labelSum_eq]
          exact fits _ (List.prefix_refl _)
        exact ⟨labelSum node, called, fun _ => rfl, (inductionHypothesis insideSum).mpr further⟩

/-! ## Sequences of calls -/

/-- From the start of the program on: the calls of `BinaryTree_LeafCount` return the leaves of their own trees
exactly if at most the last tree is not empty and its leaves fit into an `int`, and those of `calculate_tree` the
sums of their own trees exactly if the sequence is balanced. -/
theorem static_calls_iff (nodes : List BinaryNode) :
    (callAll BinaryTree_LeafCount nodes 0 = some (nodes.map fun node => (leaves node : Int)) ↔
      (∀ node ∈ nodes.dropLast, node = .nil) ∧ ∀ node ∈ nodes, leaves node < 2 ^ 31) ∧
    ((∃ values, callAll calculate_tree nodes 0 = some values ∧ Sums nodes values) ↔ Balanced 0 nodes) :=
  ⟨leafCounts_iff, sums_iff isInt32_zero⟩

/-- The second call on a tree of one node counts its leaf, or its label, a second time. -/
theorem static_calls_twice :
    callAll BinaryTree_LeafCount [.node 7 .nil .nil, .node 7 .nil .nil] 0 = some [1, 2] ∧
    callAll BinaryTree_LeafCount [.node 7 .nil .nil, .node 7 .nil .nil] 0 ≠
      some ([BinaryTree.node (7 : Int) .nil .nil, .node 7 .nil .nil].map fun node => (leaves node : Int)) ∧
    callAll calculate_tree [.node 7 .nil .nil, .node 7 .nil .nil] 0 = some [7, 14] ∧
    ¬ ∃ values, callAll calculate_tree [.node 7 .nil .nil, .node 7 .nil .nil] 0 = some values ∧
      Sums [.node 7 .nil .nil, .node 7 .nil .nil] values := by
  refine ⟨by decide, by decide, by decide, fun returns => ?_⟩
  obtain ⟨values, called, sums⟩ := returns
  have here : callAll calculate_tree [.node 7 .nil .nil, .node 7 .nil .nil] 0 = some [7, 14] := by decide
  rw [here, Option.some.injEq] at called
  rw [← called] at sums
  have second : (14 : Int) = labelSum (.node 7 .nil .nil) :=
    (List.forall₂_cons.mp (List.forall₂_cons.mp sums).2).1 (by decide)
  exact absurd second (by decide)

end KernelLearning.BinaryNodes
