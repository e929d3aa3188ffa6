import KernelLearning.CSemantics.Chains
import KernelLearning.CSemantics.Loops

/-!
# insert_list_posion

The scan looks at the value of the node behind `tmp`.  At the first match the new
node takes the place of the matched one; without a match the scan comes to the last
node and reads through its `next`.  The result is `none` if a pointer without a node is
followed, `NULL` above all, or if more turns are needed than given.
-/

namespace KernelLearning.LinkedLists

open CSemantics

/-! ## The program -/

abbrev Address := Nat

/-- `struct list_node`. -/
structure ListNode where
  data : Int
  next : Option Address

def ListNode.withNext (node : ListNode) (next : Option Address) : ListNode := { node with next := next }

/-- The nodes of the program. -/
abbrev ListHeap := Address → Option ListNode

/-- `p->next = next`. -/
def setNext (heap : ListHeap) (p : Address) (next : Option Address) : Option ListHeap :=
  (heap p).map fun node => Function.update heap p (some (node.withNext next))

/-- The loop of `insert_list_posion`: the nodes, `tmp`, and whether the loop was left by `break`. -/
structure Scan where
  heap : ListHeap
  tmp : Option Address
  stopped : Bool

def scanGoes (s : Scan) : Option Bool := some (!s.stopped && s.tmp.isSome)

def scanTurn (value : Int) (node : Address) (s : Scan) : Option Scan :=
  s.tmp.bind fun tmp => (s.heap tmp).bind fun here => here.next.bind fun next => (s.heap next).bind fun ahead =>
    if ahead.data = value then
      (setNext s.heap node ahead.next).bind fun heap =>
        (setNext heap tmp (some node)).map fun heap => { heap := heap, tmp := some tmp, stopped := true }
    else some { s with tmp := some next }

def insert_list_posion (turns : Nat) (heap : ListHeap) (list : Option Address) (value : Int) (node : Address) :
    Option ListHeap :=
  (whileLoop scanGoes (scanTurn value node) turns { heap := heap, tmp := list, stopped := false }).map Scan.heap

/-! ## Scanning -/

/-- The list from the pointer on has its nodes at these addresses. -/
abbrev IsList (heap : ListHeap) (list : Option Address) (addresses : List Address) : Prop :=
  Leads ListNode.next heap list addresses none

/-- The node at the address has the value. -/
def HasValue (heap : ListHeap) (value : Int) (address : Address) : Prop :=
  (heap address).map ListNode.data = some value

instance (heap : ListHeap) (value : Int) (address : Address) : Decidable (HasValue heap value address) :=
  inferInstanceAs (Decidable (_ = _))

variable {heap : ListHeap} {tmp next node : Address} {value : Int} {here ahead fresh : ListNode}

theorem setNext_of_node (found : heap node = some here) (next : Option Address) :
    setNext heap node next = some (Function.update heap node (some (here.withNext next))) := by
  rw [setNext, found, Option.map_some]

theorem scanTurn_passes (found : heap tmp = some here) (behind : here.next = some next)
    (foundNext : heap next = some ahead) (other : ¬ HasValue heap value next) :
    scanTurn value node ⟨heap, some tmp, false⟩ = some ⟨heap, some next, false⟩ := by
  rw [HasValue, foundNext, Option.map_some, Option.some.injEq] at other
  simp only [scanTurn, Option.bind_some, found, behind, foundNext, if_neg other]

/-- The node behind `tmp` has the value: the new node points behind it, and `tmp` to the new node. -/
theorem scanTurn_links (found : heap tmp = some here) (behind : here.next = some next)
    (foundNext : heap next = some ahead) (equal : HasValue heap value next)
    (foundNode : heap node = some fresh) (apart : tmp ≠ node) :
    scanTurn value node ⟨heap, some tmp, false⟩ =
      some ⟨Function.update (Function.update heap node (some (fresh.withNext ahead.next))) tmp
        (some (here.withNext (some node))), some tmp, true⟩ := by
  rw [HasValue, foundNext, Option.map_some, Option.some.injEq] at equal
  have still : Function.update heap node (some (fresh.withNext ahead.next)) tmp = some here := by
    rw [Function.update_of_ne apart, found]
  simp only [scanTurn, Option.bind_some, found, behind, foundNext, if_pos equal, setNext_of_node foundNode,
    setNext_of_node still, Option.map_some]

/-- The last node has no node behind it to look at. -/
theorem scanTurn_last (found : heap tmp = some here) (last : here.next = none) (value : Int) (node : Address) :
    scanTurn value node ⟨heap, some tmp, false⟩ = none := by
  simp only [scanTurn, Option.bind_some, found, last, Option.bind_none]

theorem scan_succ (turns : Nat) (tmp : Address) :
    whileLoop scanGoes (scanTurn value node) (turns + 1) ⟨heap, some tmp, false⟩ =
      (scanTurn value node ⟨heap, some tmp, false⟩).bind (whileLoop scanGoes (scanTurn value node) turns) := rfl

/-- Without the value behind the head the scan follows the `NULL` of the last node. -/
theorem scan_absent {addresses : List Address} (turns : Nat) (linked : IsList heap (some tmp) (tmp :: addresses))
    (absent : ∀ address ∈ addresses, ¬ HasValue heap value address) :
    whileLoop scanGoes (scanTurn value node) turns ⟨heap, some tmp, false⟩ = none := by
  induction turns generalizing tmp addresses with
  | zero => rfl
  | succ turns inductionHypothesis =>
    obtain ⟨_, here, found, rest⟩ := linked
    rw [scan_succ]
    cases addresses with
    | nil => rw [scanTurn_last found rest, Option.bind_none]
    | cons next addresses =>
      obtain ⟨ahead, foundNext⟩ := rest.exists_node List.mem_cons_self
      have behind : here.next = some next := rest.1
      rw [scanTurn_passes found behind foundNext (absent next List.mem_cons_self), Option.bind_some]
      rw [behind] at rest
      exact inductionHypothesis rest fun address member => absent address (List.mem_cons_of_mem next member)

/-- At the first match behind the head the new node stands in the list for the matched one. -/
theorem scan_replaces {front back : List Address} {matched : Address}
    (linked : IsList heap (some tmp) (tmp :: (front ++ matched :: back)))
    (outside : node ∉ tmp :: (front ++ matched :: back)) (foundNode : heap node = some fresh)
    (passed : ∀ address ∈ front, ¬ HasValue heap value address) (equal : HasValue heap value matched) :
    ∃ turns heap' last,
      whileLoop scanGoes (scanTurn value node) turns ⟨heap, some tmp, false⟩ = some ⟨heap', last, true⟩ ∧
      IsList heap' (some tmp) (tmp :: (front ++ node :: back)) ∧
      ∀ address, address ∉ tmp :: front → address ≠ node → heap' address = heap address := by
  induction front generalizing tmp with
  | nil =>
    have distinct := linked.nodup
    obtain ⟨_, here, found, rest⟩ := linked
    obtain ⟨behind, ahead, foundMatched, tail⟩ := rest
    have apart : tmp ≠ node := fun same => outside (by rw [same]; exact List.mem_cons_self)
    have notTmp : tmp ∉ back := fun member => (List.nodup_cons.mp distinct).1 (List.mem_cons_of_mem matched member)
    have notNode : node ∉ back := fun member => outside (List.mem_cons_of_mem tmp (List.mem_cons_of_mem matched member))
    refine ⟨2, Function.update (Function.update heap node (some (fresh.withNext ahead.next))) tmp
      (some (here.withNext (some node))), some tmp, ?_, ?_, fun address notFirst other => ?_⟩
    · rw [scan_succ, scanTurn_links found behind foundMatched equal foundNode apart, Option.bind_some]
      rfl
    · have inserted : Function.update (Function.update heap node (some (fresh.withNext ahead.next))) tmp
          (some (here.withNext (some node))) node = some (fresh.withNext ahead.next) := by
        rw [Function.update_of_ne apart.symm, Function.update_self]
      have behindTmp : IsList _ (here.withNext (some node)).next (node :: back) :=
        .cons inserted ((tail.update notNode _).update notTmp _)
      exact .cons (Function.update_self tmp _ _) behindTmp
    · have notHead : address ≠ tmp := fun same => notFirst (by rw [same]; exact List.mem_cons_self)
      rw [Function.update_of_ne notHead, Function.update_of_ne other]
  | cons next front inductionHypothesis =>
    have distinct := linked.nodup
    obtain ⟨_, here, found, rest⟩ := linked
    have behind : here.next = some next := rest.1
    obtain ⟨ahead, foundNext⟩ := rest.exists_node List.mem_cons_self
    rw [behind] at rest
    obtain ⟨turns, heap', last, done, linked', kept⟩ := inductionHypothesis rest
      (fun member => outside (List.mem_cons_of_mem tmp member))
      (fun address member => passed address (List.mem_cons_of_mem next member))
    have notFirst : tmp ∉ next :: front := fun member =>
      (List.nodup_cons.mp distinct).1 (List.mem_append_left (matched :: back) member)
    have apart : tmp ≠ node := fun same => outside (by rw [same]; exact List.mem_cons_self)
    refine ⟨turns + 1, heap', last, ?_, ?_, fun address notHead => ?_⟩
    · rw [scan_succ, scanTurn_passes found behind foundNext (passed next List.mem_cons_self), Option.bind_some, done]
    · refine .cons ((kept tmp notFirst apart).trans found) ?_
      rw [behind]
      exact linked'
    · exact kept address fun member => notHead (List.mem_cons_of_mem tmp member)

/-! ## The whole function -/

variable {list : Option Address} {addresses : List Address}

/-- The function ends without following `NULL`.  With the value in the list the new node is one more
node of it; otherwise the list stays as it is. -/
def Inserts (heap : ListHeap) (list : Option Address) (addresses : List Address) (value : Int) (node : Address) :
    Prop :=
  ∃ turns heap', insert_list_posion turns heap list value node = some heap' ∧
    ((∃ address ∈ addresses, HasValue heap value address) →
      ∃ front back, front ++ back = addresses ∧ IsList heap' list (front ++ node :: back) ∧
        ∀ address ∈ addresses, (heap' address).map ListNode.data = (heap address).map ListNode.data) ∧
    ((∀ address ∈ addresses, ¬ HasValue heap value address) → IsList heap' list addresses ∧
      ∀ address ∈ addresses, heap' address = heap address)

theorem insert_list_posion_absent {head : Address} (turns : Nat) (linked : IsList heap (some head) (head :: addresses))
    (absent : ∀ address ∈ addresses, ¬ HasValue heap value address) :
    insert_list_posion turns heap (some head) value node = none := by
  rw [insert_list_posion, scan_absent turns linked absent, Option.map_none]

theorem insert_list_posion_replaces {head matched : Address} {front back : List Address}
    (linked : IsList heap (some head) (head :: (front ++ matched :: back)))
    (outside : node ∉ head :: (front ++ matched :: back)) (foundNode : heap node = some fresh)
    (passed : ∀ address ∈ front, ¬ HasValue heap value address) (equal : HasValue heap value matched) :
    ∃ turns heap', insert_list_posion turns heap (some head) value node = some heap' ∧
      IsList heap' (some head) (head :: (front ++ node :: back)) := by
  obtain ⟨turns, heap', last, done, linked', _⟩ := scan_replaces linked outside foundNode passed equal
  exact ⟨turns, heap', by rw [insert_list_posion, done, Option.map_some], linked'⟩

theorem insert_list_posion_unique {turns turns' : Nat} {heap' heap'' : ListHeap}
    (ends : insert_list_posion turns heap list value node = some heap')
    (ends' : insert_list_posion turns' heap list value node = some heap'') : heap' = heap'' := by
  obtain ⟨last, done, same⟩ := Option.map_eq_some_iff.mp ends
  obtain ⟨last', done', same'⟩ := Option.map_eq_some_iff.mp ends'
  rw [← same, ← same', whileLoop_unique done done']

/-- A list with a node is not inserted into: a match behind the head loses a node, anything else is a
`NULL` dereference. -/
theorem not_inserts {head : Address} (linked : IsList heap (some head) (head :: addresses))
    (outside : node ∉ head :: addresses) (foundNode : heap node = some fresh) :
    ¬ Inserts heap (some head) (head :: addresses) value node := by
  intro inserts
  obtain ⟨turns, heap', done, present, _⟩ := inserts
  cases first : addresses.find? (fun address => decide (HasValue heap value address)) with
  | none =>
    have absent : ∀ address ∈ addresses, ¬ HasValue heap value address := by
      intro address member
      simpa using List.find?_eq_none.mp first address member
    rw [insert_list_posion_absent turns linked absent] at done
    cases done
  | some matched =>
    obtain ⟨equal, front, back, split, passed⟩ := List.find?_eq_some_iff_append.mp first
    rw [decide_eq_true_eq] at equal
    rw [split] at linked outside present
    have notBefore : ∀ address ∈ front, ¬ HasValue heap value address := by
      intro address member
      simpa using passed address member
    obtain ⟨turns', heap'', done', linked'⟩ := insert_list_posion_replaces linked outside foundNode notBefore equal
    rw [← insert_list_posion_unique done done'] at linked'
    have member : matched ∈ head :: (front ++ matched :: back) :=
      List.mem_cons_of_mem head (List.mem_append_right front List.mem_cons_self)
    obtain ⟨before, behind, whole, inserted, _⟩ := present ⟨matched, member, equal⟩
    -- one list has as many nodes as before, the other one more
    have lengths := congrArg List.length (inserted.unique linked')
    have lengths' := congrArg List.length whole
    simp only [List.length_cons, List.length_append] at lengths lengths'
    omega

/-- The function does what its name says for the empty list only. -/
theorem insert_list_posion_inserts_iff (linked : IsList heap list addresses) (outside : node ∉ addresses)
    (foundNode : heap node = some fresh) : Inserts heap list addresses value node ↔ list = none := by
  cases addresses with
  | nil =>
    have empty : list = none := linked
    refine iff_of_true ⟨1, heap, by rw [empty]; rfl, fun present => ?_, fun _ => ⟨linked, fun _ _ => rfl⟩⟩ empty
    obtain ⟨address, member, _⟩ := present
    exact absurd member List.not_mem_nil
  | cons head addresses =>
    have here : list = some head := linked.1
    rw [here] at linked ⊢
    exact iff_of_false (not_inserts linked outside foundNode) (Option.some_ne_none head)

/-- The list of `main` as its nodes have been inserted, with the new node behind it. -/
def mainHeap : ListHeap := fun address =>
  [ListNode.mk 10 (some 1), ⟨2, some 2⟩, ⟨4, some 3⟩, ⟨3, some 4⟩, ⟨8, none⟩, ⟨0, none⟩][address]?

theorem isList_mainHeap : IsList mainHeap (some 0) [0, 1, 2, 3, 4] :=
  .cons rfl (.cons rfl (.cons rfl (.cons rfl (.cons rfl rfl))))

theorem insert_list_posion_inserts_iff_main :
    Inserts mainHeap none [] 3 5 ∧ ¬ Inserts mainHeap (some 0) [0, 1, 2, 3, 4] 3 5 :=
  ⟨(insert_list_posion_inserts_iff (show IsList mainHeap none [] from rfl) List.not_mem_nil rfl).mpr rfl,
    fun inserts => absurd ((insert_list_posion_inserts_iff isList_mainHeap (by decide) rfl).mp inserts)
      (Option.some_ne_none 0)⟩

/-- The call in `main` loses the node with the value 3. -/
theorem insert_list_posion_loses_node : ¬ ∀ (heap : ListHeap) (list : Option Address) (addresses : List Address)
    (value : Int) (node : Address) (fresh : ListNode), IsList heap list addresses → node ∉ addresses →
      heap node = some fresh → Inserts heap list addresses value node := by
  intro always
  exact not_inserts isList_mainHeap (by decide) rfl
    (always mainHeap (some 0) [0, 1, 2, 3, 4] 3 5 ⟨0, none⟩ isList_mainHeap (by decide) rfl)

end KernelLearning.LinkedLists
