import KernelLearning.CSemantics.Chains

/-!
# single_list_insert

The cursor is the address of the `next` field that the next insertion writes.  It
starts at that of the first node, so the first insertion makes this node point to
itself; the second insertion writes the same field again and opens the circle.
-/

namespace KernelLearning.LinkedLists

open CSemantics

/-! ## The program -/

/-- `struct node`, with pointers to nodes of the type `κ`. -/
structure Node (κ : Type) where
  next : Option κ
  num : Int

def Node.withNext {κ : Type} (node : Node κ) (next : Option κ) : Node κ := { node with next := next }

/-- `&node->next`, what a `struct node **` of the program points to. -/
structure NextField (κ : Type) where
  node : κ

/-- The nodes, and the variable that `list` points to. -/
structure Building (κ : Type) where
  heap : κ → Option (Node κ)
  list : NextField κ

section Insert

variable {κ : Type} [DecidableEq κ]

/-- `**list = node; *list = &node->next`. -/
def single_list_insert (node : κ) (s : Building κ) : Option (Building κ) :=
  (s.heap s.list.node).map fun target =>
    { heap := Function.update s.heap s.list.node (some (target.withNext (some node))), list := ⟨node⟩ }

def insertNodes : List κ → Building κ → Option (Building κ)
  | [], s => some s
  | node :: nodes, s => (single_list_insert node s).bind (insertNodes nodes)

/-! ## The list behind the cursor -/

variable {heap : κ → Option (Node κ)} {first last node : κ} {inserted nodes : List κ} {target : Node κ}

theorem single_list_insert_of_node (found : heap last = some target) :
    single_list_insert node ⟨heap, ⟨last⟩⟩ =
      some ⟨Function.update heap last (some (target.withNext (some node))), ⟨node⟩⟩ := by
  simp only [single_list_insert, found, Option.map_some]

/-- A node that is not inserted yet. -/
def Unlinked (heap : κ → Option (Node κ)) (node : κ) : Prop := ∃ content, heap node = some content ∧ content.next = none

theorem Unlinked.update (unlinked : Unlinked heap node) (apart : node ≠ last) (content : Option (Node κ)) :
    Unlinked (Function.update heap last content) node := by
  obtain ⟨found, here, free⟩ := unlinked
  exact ⟨found, by rw [Function.update_of_ne apart, here], free⟩

/-- The first node leads to the last one, whose `next` is where the cursor points.  At first both are the
same node, and its `next` may be anything. -/
structure Reaches (first : κ) (inserted : List κ) (last : κ) (s : Building κ) : Prop where
  leads : Leads Node.next s.heap (some first) inserted (some last)
  cursor : s.list = ⟨last⟩
  outside : last ∉ inserted

theorem Reaches.step {s : Building κ} (reaches : Reaches first inserted last s) (found : s.heap last = some target)
    (apart : node ≠ last) (new : node ∉ inserted) :
    single_list_insert node s =
        some ⟨Function.update s.heap last (some (target.withNext (some node))), ⟨node⟩⟩ ∧
      Reaches first (inserted ++ [last]) node
        ⟨Function.update s.heap last (some (target.withNext (some node))), ⟨node⟩⟩ := by
  obtain ⟨heap, list⟩ := s
  have here : list = ⟨last⟩ := reaches.cursor
  refine ⟨by rw [here]; exact single_list_insert_of_node found, ?_, rfl, ?_⟩
  · have link : Leads Node.next (Function.update heap last (some (target.withNext (some node)))) (some last) [last]
        (some node) := ⟨rfl, target.withNext (some node), Function.update_self last _ _, rfl⟩
    exact leads_append.mpr ⟨some last, reaches.leads.update reaches.outside _, link⟩
  · intro member
    rcases List.mem_append.mp member with before | atEnd
    · exact new before
    · exact apart (List.mem_singleton.mp atEnd)

/-- Each further node goes behind the last one, and the node that is inserted last keeps its `NULL`. -/
theorem Reaches.run {s : Building κ} (reaches : Reaches first inserted last s) (found : s.heap last = some target)
    (distinct : (inserted ++ last :: nodes).Nodup) (unlinked : ∀ node ∈ nodes, Unlinked s.heap node)
    (ends : nodes = [] → target.next = none) :
    ∃ s', insertNodes nodes s = some s' ∧ Leads Node.next s'.heap (some first) (inserted ++ last :: nodes) none := by
  induction nodes generalizing s inserted last target with
  | nil =>
    have tail : Leads Node.next s.heap (some last) [last] none := ⟨rfl, target, found, ends rfl⟩
    exact ⟨s, rfl, leads_append.mpr ⟨some last, reaches.leads, tail⟩⟩
  | cons node nodes inductionHypothesis =>
    -- the node becomes the last one, and those behind it are not touched
    have behind : (last :: node :: nodes).Nodup := (List.nodup_append.mp distinct).2.1
    have apart : ∀ other ∈ node :: nodes, other ≠ last := by
      intro other member same
      rw [same] at member
      exact (List.nodup_cons.mp behind).1 member
    have new : node ∉ inserted := fun member =>
      (List.nodup_append.mp distinct).2.2 node member node (List.mem_cons_of_mem last List.mem_cons_self) rfl
    obtain ⟨done, reaches'⟩ := reaches.step found (apart node List.mem_cons_self) new
    obtain ⟨content, foundNode, free⟩ := (unlinked node List.mem_cons_self).update (apart node List.mem_cons_self)
      (some (target.withNext (some node)))
    rw [insertNodes, done, Option.bind_some]
    rw [List.append_cons] at distinct ⊢
    exact inductionHypothesis reaches' foundNode distinct (fun other member =>
      (unlinked other (List.mem_cons_of_mem node member)).update (apart other (List.mem_cons_of_mem node member)) _)
      fun _ => free

/-! ## The whole list -/

/-- With the cursor at the `next` of the first node, the calls for all nodes make the list of them. -/
def Builds (heap : κ → Option (Node κ)) (first : κ) (nodes : List κ) : Prop :=
  ∃ s, insertNodes (first :: nodes) { heap := heap, list := ⟨first⟩ } = some s ∧
    Leads Node.next s.heap (some first) (first :: nodes) none

theorem insertNodes_first (found : heap first = some target) (nodes : List κ) :
    insertNodes (first :: nodes) ⟨heap, ⟨first⟩⟩ =
      insertNodes nodes ⟨Function.update heap first (some (target.withNext (some first))), ⟨first⟩⟩ := by
  rw [insertNodes, single_list_insert_of_node found, Option.bind_some]

/-- A single node still points to itself afterwards. -/
theorem not_builds_one (found : heap first = some target) : ¬ Builds heap first [] := by
  intro builds
  obtain ⟨s, done, _, content, here, ends⟩ := builds
  rw [insertNodes_first found, insertNodes, Option.some.injEq] at done
  have circle : s.heap first = some (target.withNext (some first)) := by
    rw [← done]
    exact Function.update_self first _ _
  rw [circle, Option.some.injEq] at here
  rw [← here] at ends
  exact Option.some_ne_none first ends

theorem single_list_insert_builds_iff (distinct : (first :: nodes).Nodup)
    (unlinked : ∀ node ∈ first :: nodes, Unlinked heap node) : Builds heap first nodes ↔ nodes ≠ [] := by
  obtain ⟨target, found, _⟩ := unlinked first List.mem_cons_self
  constructor
  · intro builds empty
    rw [empty] at builds
    exact not_builds_one found builds
  · intro more
    have circle : Reaches first [] first
        ⟨Function.update heap first (some (target.withNext (some first))), ⟨first⟩⟩ :=
      ⟨rfl, rfl, List.not_mem_nil⟩
    have others : ∀ node ∈ nodes,
        Unlinked (Function.update heap first (some (target.withNext (some first)))) node := by
      intro node member
      refine (unlinked node (List.mem_cons_of_mem first member)).update ?_ _
      intro same
      rw [same] at member
      exact (List.nodup_cons.mp distinct).1 member
    obtain ⟨s, done, leads⟩ :=
      circle.run (Function.update_self first _ _) distinct others fun empty => absurd empty more
    exact ⟨s, by rw [insertNodes_first found, done], leads⟩

end Insert

/-- The nodes `n0` to `n3` of `main`. -/
def mainNodes : Fin 4 → Option (Node (Fin 4)) := fun node => some { next := none, num := node.val }

theorem single_list_insert_builds_iff_main : Builds mainNodes 0 [1, 2, 3] ∧ ¬ Builds mainNodes 0 [] :=
  ⟨(single_list_insert_builds_iff (by decide) fun node _ => ⟨⟨none, node.val⟩, rfl, rfl⟩).mpr (List.cons_ne_nil _ _),
    fun builds => (single_list_insert_builds_iff (by decide) fun node _ => ⟨⟨none, node.val⟩, rfl, rfl⟩).mp builds rfl⟩

/-- One node does not make a list. -/
theorem single_list_insert_closes_circle : ¬ ∀ (heap : Nat → Option (Node Nat)) (first : Nat) (nodes : List Nat),
    (first :: nodes).Nodup → (∀ node ∈ first :: nodes, Unlinked heap node) → Builds heap first nodes := by
  intro always
  refine not_builds_one rfl (always (fun _ => some ⟨none, 0⟩) 0 [] (List.nodup_singleton 0) fun _ _ => ?_)
  exact ⟨⟨none, 0⟩, rfl, rfl⟩

end KernelLearning.LinkedLists
