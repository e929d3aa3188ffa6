import KernelLearning.LinkedLists.ListExperiment

/-!
# The list of the program

`create_list`, and `insert_list` and `insert_list_posion` in any order, on a list that is printed in the end.
To whoever reads what is printed the list is a sequence of values.
-/

namespace KernelLearning.LinkedLists

open CSemantics

/-! ## The program -/

/-- `create_list(value)`; `block` is what `malloc` returns. -/
def create_list (block : Option Address) (heap : ListHeap) (value : Int) : Option (ListHeap × Option Address) :=
  block.map fun list => (Function.update heap list (some ⟨value, none⟩), some list)

def lastGoes (heap : ListHeap) (tmp : Address) : Option Bool := (heap tmp).map fun here => here.next.isSome

def lastTurn (heap : ListHeap) (tmp : Address) : Option Address := (heap tmp).bind ListNode.next

def insert_list (turns : Nat) (heap : ListHeap) (list node : Option Address) : Option ListHeap :=
  match list, node with
  | some list, some node =>
    (whileLoop (lastGoes heap) (lastTurn heap) turns list).bind fun tmp => setNext heap tmp (some node)
  | _, _ => some heap

/-- The loop of `main` that prints: `list`, and what was printed. -/
structure Printing where
  list : Option Address
  printed : List Int

def printGoes (s : Printing) : Option Bool := some s.list.isSome

def printTurn (heap : ListHeap) (s : Printing) : Option Printing :=
  s.list.bind fun list => (heap list).map fun here => ⟨here.next, s.printed ++ [here.data]⟩

def printList (turns : Nat) (heap : ListHeap) (list : Option Address) : Option (List Int) :=
  (whileLoop printGoes (printTurn heap) turns ⟨list, []⟩).map Printing.printed

/-- One of the calls that `main` makes about the list. -/
inductive Operation where
  | insertList (node : Address)
  | insertListPosion (value : Int) (node : Address)

def Operation.node : Operation → Address
  | .insertList node | .insertListPosion _ node => node

def Operation.run (turns : Nat) (list : Option Address) (heap : ListHeap) : Operation → Option ListHeap
  | .insertList node => insert_list turns heap list (some node)
  | .insertListPosion value node => insert_list_posion turns heap list value node

def runOperations (turns : Nat) (list : Option Address) : List Operation → ListHeap → Option ListHeap
  | [], heap => some heap
  | operation :: operations, heap => (operation.run turns list heap).bind (runOperations turns list operations)

/-- `main` as far as it is about the list, with any calls. -/
def listMain (turns : Nat) (block : Option Address) (heap : ListHeap) (value : Int) (operations : List Operation) :
    Option (List Int) :=
  (create_list block heap value).bind fun created =>
    (runOperations turns created.2 operations created.1).bind fun heap => printList turns heap created.2

/-! ## The sequence of values -/

/-- What an operation makes of the values, where `data` has those of the nodes: `insert_list` appends, and
`insert_list_posion` replaces the first equal value behind the head. -/
def Operation.onValues (data : Address → Int) : Operation → List Int → Option (List Int)
  | .insertList node, values => some (values ++ [data node])
  | .insertListPosion _ _, [] => some []
  | .insertListPosion value node, head :: behind =>
    if value ∈ behind then some (head :: behind.replace value (data node)) else none

def valuesAfter (data : Address → Int) : List Operation → List Int → Option (List Int)
  | [], values => some values
  | operation :: operations, values => (operation.onValues data values).bind (valuesAfter data operations)

/-- The list has its nodes at the addresses, and they have these values. -/
structure Shows (heap : ListHeap) (list : Option Address) (addresses : List Address) (values : List Int) : Prop where
  linked : IsList heap list addresses
  data : addresses.map (fun address => (heap address).map ListNode.data) = values.map some

/-- The nodes that are still to be inserted are different ones, and point to nothing. -/
structure Pending (heap : ListHeap) (data : Address → Int) (addresses : List Address) (operations : List Operation) :
    Prop where
  distinct : (operations.map Operation.node).Nodup
  outside : ∀ operation ∈ operations, operation.node ∉ addresses
  fresh : ∀ operation ∈ operations, heap operation.node = some ⟨data operation.node, none⟩

/-! ## No operation changes a value -/

variable {heap heap' : ListHeap} {list : Option Address} {head node : Address} {value number : Int}
  {addresses : List Address} {values : List Int} {data : Address → Int} {turns turns' : Nat}

/-- The values of all nodes are as they were. -/
def SameData (heap heap' : ListHeap) : Prop :=
  ∀ address, (heap' address).map ListNode.data = (heap address).map ListNode.data

theorem setNext_sameData {p : Address} {next : Option Address} (stored : setNext heap p next = some heap') :
    SameData heap heap' := by
  obtain ⟨here, found, rfl⟩ := Option.map_eq_some_iff.mp stored
  intro address
  by_cases same : address = p
  · rw [same, Function.update_self, found]
    rfl
  · rw [Function.update_of_ne same]

theorem scanTurn_sameData {s s' : Scan} (turn : scanTurn value node s = some s') : SameData s.heap s'.heap := by
  obtain ⟨tmp, _, turn⟩ := Option.bind_eq_some_iff.mp turn
  obtain ⟨here, _, turn⟩ := Option.bind_eq_some_iff.mp turn
  obtain ⟨next, _, turn⟩ := Option.bind_eq_some_iff.mp turn
  obtain ⟨ahead, _, turn⟩ := Option.bind_eq_some_iff.mp turn
  split at turn
  · obtain ⟨first, stored, turn⟩ := Option.bind_eq_some_iff.mp turn
    obtain ⟨second, linked, rfl⟩ := Option.map_eq_some_iff.mp turn
    intro address
    exact (setNext_sameData linked address).trans (setNext_sameData stored address)
  · cases turn
    exact fun _ => rfl

theorem scan_sameData {s last : Scan}
    (ends : whileLoop scanGoes (scanTurn value node) turns s = some last) : SameData s.heap last.heap :=
  whileLoop_keeps (fun state => SameData s.heap state.heap)
    (fun _ _ kept turn address => (scanTurn_sameData turn address).trans (kept address)) (fun _ => rfl) ends

/-! ## insert_list -/

/-- The loop of `insert_list` comes to the last node. -/
theorem whileLoop_last {front : List Address} {tmp last : Address}
    (linked : IsList heap (some tmp) (front ++ [last])) :
    ∃ turns, whileLoop (lastGoes heap) (lastTurn heap) turns tmp = some last := by
  induction front generalizing tmp with
  | nil =>
    obtain ⟨same, here, found, ends⟩ := linked
    obtain rfl := Option.some.inj same
    have ends : here.next = none := ends
    refine ⟨1, ?_⟩
    simp [whileLoop, lastGoes, found, ends]
  | cons address front inductionHypothesis =>
    obtain ⟨same, here, found, rest⟩ := linked
    obtain rfl := Option.some.inj same
    obtain ⟨next, behind⟩ := rest.exists_first (by simp)
    rw [behind] at rest
    obtain ⟨turns, ends⟩ := inductionHypothesis rest
    refine ⟨turns + 1, ?_⟩
    simp [whileLoop, lastGoes, lastTurn, found, behind, ends]

theorem insert_list_shows (shows : Shows heap (some head) addresses values) (outside : node ∉ addresses)
    (fresh : heap node = some ⟨number, none⟩) :
    ∃ turns heap', insert_list turns heap (some head) (some node) = some heap' ∧
      Shows heap' (some head) (addresses ++ [node]) (values ++ [number]) ∧
      ∀ other, other ∉ addresses → heap' other = heap other := by
  obtain ⟨linked, values_eq⟩ := shows
  rcases List.eq_nil_or_concat addresses with rfl | ⟨front, last, split⟩
  · exact absurd linked (Option.some_ne_none head)
  rw [List.concat_eq_append] at split
  subst split
  obtain ⟨here, found⟩ := linked.exists_node (List.mem_append_right front List.mem_cons_self)
  obtain ⟨turns, ends⟩ := whileLoop_last linked
  have stored := setNext_of_node found (some node)
  refine ⟨turns, Function.update heap last (some (here.withNext (some node))), ?_, ⟨?_, ?_⟩, ?_⟩
  · rw [insert_list, ends, Option.bind_some, stored]
  · rw [List.append_assoc]
    exact linked.extend outside rfl fresh rfl
  · have before := (List.map_congr_left fun address _ => setNext_sameData stored address).trans values_eq
    have added := (setNext_sameData stored node).trans (congrArg (Option.map ListNode.data) fresh)
    rw [List.map_append, before, List.map_append]
    exact congrArg (fun value => values.map some ++ [value]) added
  · intro other away
    refine Function.update_of_ne ?_ _ _
    rintro rfl
    exact away (List.mem_append_right front List.mem_cons_self)

/-! ## insert_list_posion -/

theorem exists_hasValue_iff
    (values_eq : addresses.map (fun address => (heap address).map ListNode.data) = values.map some) :
    (∃ address ∈ addresses, HasValue heap value address) ↔ value ∈ values := by
  have member : some value ∈ values.map some ↔ value ∈ values := by simp
  rw [← member, ← values_eq, List.mem_map]
  rfl

theorem insert_list_posion_shows {behind : List Int} {fresh : ListNode}
    (shows : Shows heap (some head) (head :: addresses) (number :: behind)) (among : value ∈ behind)
    (outside : node ∉ head :: addresses) (found : heap node = some fresh) :
    ∃ turns heap' addresses', insert_list_posion turns heap (some head) value node = some heap' ∧
      Shows heap' (some head) addresses' (number :: behind.replace value fresh.data) ∧
      (∀ address ∈ addresses', address ∈ head :: addresses ∨ address = node) ∧
      ∀ other, other ∉ head :: addresses → other ≠ node → heap' other = heap other := by
  obtain ⟨linked, values_eq⟩ := shows
  rw [List.map_cons, List.map_cons, List.cons.injEq] at values_eq
  obtain ⟨headValue, values_eq⟩ := values_eq
  have present := (exists_hasValue_iff values_eq).mpr among
  cases first : addresses.find? (fun address => decide (HasValue heap value address)) with
  | none =>
    obtain ⟨address, member, equal⟩ := present
    exact absurd equal (by simpa using List.find?_eq_none.mp first address member)
  | some matched =>
    obtain ⟨equal, front, back, split, passed⟩ := List.find?_eq_some_iff_append.mp first
    rw [decide_eq_true_eq] at equal
    subst split
    have notBefore : ∀ address ∈ front, ¬ HasValue heap value address := by
      intro address member
      simpa using passed address member
    obtain ⟨turns, heap', last, done, linked', kept⟩ := scan_replaces linked outside found notBefore equal
    have same : SameData heap heap' := scan_sameData done
    -- the values split where the addresses do
    rw [List.map_append, List.map_cons] at values_eq
    obtain ⟨before, rest, rfl, before_eq, rest_eq⟩ := List.map_eq_append_iff.mp values_eq.symm
    obtain ⟨here, after, rfl, here_eq, after_eq⟩ := List.map_eq_cons_iff.mp rest_eq
    have here_value : here = value := Option.some.inj (here_eq.trans equal)
    have absent : value ∉ before := by
      intro member
      obtain ⟨address, inFront, has⟩ := (exists_hasValue_iff before_eq.symm).mpr member
      exact notBefore address inFront has
    have replaced : (before ++ here :: after).replace value fresh.data = before ++ fresh.data :: after := by
      rw [List.replace_append_right absent, here_value, List.replace_cons_self]
    refine ⟨turns, heap', head :: (front ++ node :: back), ?_, ⟨linked', ?_⟩, ?_, ?_⟩
    · rw [insert_list_posion, done, Option.map_some]
    · rw [replaced, List.map_congr_left (fun address _ => same address)]
      simp only [List.map_cons, List.map_append, headValue, before_eq, after_eq, found, Option.map_some]
    · intro address member
      simp only [List.mem_cons, List.mem_append] at member ⊢
      tauto
    · intro other away notNode
      refine kept other (fun member => away ?_) notNode
      simp only [List.mem_cons, List.mem_append] at member ⊢
      tauto

/-! ## One operation after the other -/

/-- The operation does to the list what it does to the values, or fails as it does there. -/
theorem operation_shows {operation : Operation} {operations : List Operation}
    (shows : Shows heap (some head) addresses values)
    (pending : Pending heap data addresses (operation :: operations)) :
    (operation.onValues data values = none → ∀ turns, operation.run turns (some head) heap = none) ∧
      ∀ values', operation.onValues data values = some values' → ∃ turns heap' addresses',
        operation.run turns (some head) heap = some heap' ∧ Shows heap' (some head) addresses' values' ∧
          Pending heap' data addresses' operations := by
  obtain ⟨distinct, outside, fresh⟩ := pending
  rw [List.map_cons, List.nodup_cons] at distinct
  have outsideHere := outside operation List.mem_cons_self
  have freshHere := fresh operation List.mem_cons_self
  have apart : ∀ other ∈ operations, other.node ≠ operation.node := by
    intro other member same
    exact distinct.1 (List.mem_map.mpr ⟨other, member, same⟩)
  -- what was not touched is still to be inserted
  have stillPending : ∀ heap' addresses', (∀ address ∈ addresses', address ∈ addresses ∨ address = operation.node) →
      (∀ other, other ∉ addresses → other ≠ operation.node → heap' other = heap other) →
        Pending heap' data addresses' operations := by
    intro heap' addresses' known kept
    refine ⟨distinct.2, ?_, ?_⟩
    · intro other later member
      rcases known _ member with before | same
      · exact outside other (List.mem_cons_of_mem _ later) before
      · exact apart other later same
    · intro other later
      rw [kept other.node (outside other (List.mem_cons_of_mem _ later)) (apart other later)]
      exact fresh other (List.mem_cons_of_mem _ later)
  cases operation with
  | insertList node =>
    refine ⟨(fun impossible => by cases impossible), ?_⟩
    intro values' appended
    cases appended
    obtain ⟨turns, heap', ran, shows', kept⟩ := insert_list_shows shows outsideHere freshHere
    refine ⟨turns, heap', _, ran, shows', stillPending heap' _ ?_ fun other away _ => kept other away⟩
    intro address member
    simpa [Operation.node] using member
  | insertListPosion value node =>
    obtain ⟨linked, values_eq⟩ := shows
    cases addresses with
    | nil => exact absurd linked (Option.some_ne_none head)
    | cons first addresses =>
      obtain rfl := Option.some.inj linked.1
      cases values with
      | nil => cases values_eq
      | cons number behind =>
        by_cases among : value ∈ behind
        · refine ⟨fun impossible => by simp [Operation.onValues, among] at impossible, ?_⟩
          intro values' replaced
          rw [Operation.onValues, if_pos among] at replaced
          cases replaced
          obtain ⟨turns, heap', addresses', ran, shows', known, kept⟩ :=
            insert_list_posion_shows ⟨linked, values_eq⟩ among outsideHere freshHere
          exact ⟨turns, heap', addresses', ran, shows', stillPending heap' addresses' known kept⟩
        · refine ⟨fun _ turns => ?_, fun values' impossible => by simp [Operation.onValues, among] at impossible⟩
          refine insert_list_posion_absent turns linked fun address member equal => among ?_
          rw [List.map_cons, List.map_cons, List.cons.injEq] at values_eq
          exact (exists_hasValue_iff values_eq.2).mp ⟨address, member, equal⟩

theorem insert_list_mono {node : Option Address} (ran : insert_list turns heap list node = some heap')
    (more : turns ≤ turns') : insert_list turns' heap list node = some heap' := by
  cases list with
  | none => exact ran
  | some list =>
    cases node with
    | none => exact ran
    | some node =>
      obtain ⟨last, ends, stored⟩ := Option.bind_eq_some_iff.mp ran
      exact Option.bind_eq_some_iff.mpr ⟨last, whileLoop_mono ends more, stored⟩

theorem Operation.run_mono {operation : Operation} (ran : operation.run turns list heap = some heap')
    (more : turns ≤ turns') : operation.run turns' list heap = some heap' := by
  cases operation with
  | insertList node => exact insert_list_mono ran more
  | insertListPosion value node =>
    obtain ⟨last, ends, same⟩ := Option.map_eq_some_iff.mp ran
    exact Option.map_eq_some_iff.mpr ⟨last, whileLoop_mono ends more, same⟩

theorem runOperations_mono {operations : List Operation} (ran : runOperations turns list operations heap = some heap')
    (more : turns ≤ turns') : runOperations turns' list operations heap = some heap' := by
  induction operations generalizing heap with
  | nil => exact ran
  | cons operation operations inductionHypothesis =>
    obtain ⟨next, now, later⟩ := Option.bind_eq_some_iff.mp ran
    exact Option.bind_eq_some_iff.mpr ⟨next, operation.run_mono now more, inductionHypothesis later⟩

/-- All the operations, in order. -/
theorem runOperations_shows {operations : List Operation} (shows : Shows heap (some head) addresses values)
    (pending : Pending heap data addresses operations) :
    (valuesAfter data operations values = none → ∀ turns, runOperations turns (some head) operations heap = none) ∧
      ∀ values', valuesAfter data operations values = some values' → ∃ turns heap' addresses',
        runOperations turns (some head) operations heap = some heap' ∧ Shows heap' (some head) addresses' values' := by
  induction operations generalizing heap addresses values with
  | nil =>
    refine ⟨(fun impossible => by cases impossible), ?_⟩
    intro values' same
    cases same
    exact ⟨0, heap, addresses, rfl, shows⟩
  | cons operation operations inductionHypothesis =>
    obtain ⟨fails, goes⟩ := operation_shows shows pending
    cases now : operation.onValues data values with
    | none =>
      refine ⟨fun _ turns => ?_, fun values' impossible => ?_⟩
      · rw [runOperations, fails now turns, Option.bind_none]
      · rw [valuesAfter, now] at impossible
        cases impossible
    | some next =>
      obtain ⟨turns, heap', addresses', ran, shows', pending'⟩ := goes next now
      obtain ⟨failsLater, goesLater⟩ := inductionHypothesis shows' pending'
      rw [valuesAfter, now, Option.bind_some]
      constructor
      · intro impossible turns'
        rw [runOperations]
        cases other : operation.run turns' (some head) heap with
        | none => rfl
        | some heap'' =>
          -- with enough turns for both, the two runs are one
          have same := (operation.run_mono ran (Nat.le_max_left turns turns')).symm.trans
            (operation.run_mono other (Nat.le_max_right turns turns'))
          cases same
          exact failsLater impossible turns'
      · intro values' done
        obtain ⟨turns', heap'', addresses'', later, shows''⟩ := goesLater values' done
        refine ⟨max turns turns', heap'', addresses'', ?_, shows''⟩
        rw [runOperations, operation.run_mono ran (Nat.le_max_left turns turns'), Option.bind_some]
        exact runOperations_mono later (Nat.le_max_right turns turns')

/-! ## What is printed -/

theorem whileLoop_prints (printed : List Int) (shows : Shows heap list addresses values) :
    whileLoop printGoes (printTurn heap) (addresses.length + 1) ⟨list, printed⟩ = some ⟨none, printed ++ values⟩ := by
  induction addresses generalizing list printed values with
  | nil =>
    obtain ⟨linked, values_eq⟩ := shows
    have ended : list = none := linked
    have none_left : values = [] := by simpa using values_eq.symm
    simp [whileLoop, printGoes, ended, none_left]
  | cons address addresses inductionHypothesis =>
    obtain ⟨⟨rfl, here, found, rest⟩, values_eq⟩ := shows
    cases values with
    | nil => cases values_eq
    | cons value values =>
      rw [List.map_cons, List.map_cons, List.cons.injEq, found] at values_eq
      have value_eq : here.data = value := Option.some.inj values_eq.1
      have later := inductionHypothesis (printed ++ [value]) ⟨rest, values_eq.2⟩
      rw [List.append_assoc, List.singleton_append] at later
      rw [← later, whileLoop]
      simp [printGoes, printTurn, found, value_eq]

theorem listMain_mono {block : Option Address} {operations : List Operation} {printed : List Int}
    (ran : listMain turns block heap value operations = some printed) (more : turns ≤ turns') :
    listMain turns' block heap value operations = some printed := by
  obtain ⟨created, first, rest⟩ := Option.bind_eq_some_iff.mp ran
  obtain ⟨last, operated, shown⟩ := Option.bind_eq_some_iff.mp rest
  obtain ⟨ended, ends, same⟩ := Option.map_eq_some_iff.mp shown
  refine Option.bind_eq_some_iff.mpr ⟨created, first, Option.bind_eq_some_iff.mpr ⟨last, ?_, ?_⟩⟩
  · exact runOperations_mono operated more
  · exact Option.map_eq_some_iff.mpr ⟨ended, whileLoop_mono ends more, same⟩

/-- The program prints the sequence that the calls make of the first value, for any calls with different nodes of
any values; it fails exactly if an `insert_list_posion` looks for a value that is not behind the head. -/
theorem listMain_prints_iff {operations : List Operation} {printed : List Int}
    (distinct : (head :: operations.map Operation.node).Nodup)
    (fresh : ∀ operation ∈ operations, heap operation.node = some ⟨data operation.node, none⟩) :
    (∃ turns, listMain turns (some head) heap value operations = some printed) ↔
      valuesAfter data operations [value] = some printed := by
  rw [List.nodup_cons] at distinct
  have apart : ∀ operation ∈ operations, operation.node ≠ head := by
    intro operation member same
    exact distinct.1 (List.mem_map.mpr ⟨operation, member, same⟩)
  have shows : Shows (Function.update heap head (some ⟨value, none⟩)) (some head) [head] [value] := by
    refine ⟨.cons (Function.update_self head _ _) rfl, ?_⟩
    simp
  have pending : Pending (Function.update heap head (some ⟨value, none⟩)) data [head] operations := by
    refine ⟨distinct.2, ?_, ?_⟩
    · intro operation member
      simpa using apart operation member
    · intro operation member
      rw [Function.update_of_ne (apart operation member)]
      exact fresh operation member
  obtain ⟨fails, goes⟩ := runOperations_shows shows pending
  have prints : ∀ values, valuesAfter data operations [value] = some values →
      ∃ turns, listMain turns (some head) heap value operations = some values := by
    intro values done
    obtain ⟨turns, heap', addresses', ran, shows'⟩ := goes values done
    have ends := whileLoop_prints [] shows'
    refine ⟨max turns (addresses'.length + 1), Option.bind_eq_some_iff.mpr ⟨_, rfl,
      Option.bind_eq_some_iff.mpr ⟨heap', runOperations_mono ran (Nat.le_max_left _ _), ?_⟩⟩⟩
    exact Option.map_eq_some_iff.mpr ⟨_, whileLoop_mono ends (Nat.le_max_right _ _), rfl⟩
  constructor
  · intro ran
    obtain ⟨turns, ran⟩ := ran
    cases after : valuesAfter data operations [value] with
    | none =>
      obtain ⟨created, first, rest⟩ := Option.bind_eq_some_iff.mp ran
      cases first
      rw [fails after turns] at rest
      cases rest
    | some values =>
      obtain ⟨turns', ran'⟩ := prints values after
      exact (listMain_mono ran' (Nat.le_max_right turns turns')).symm.trans
        (listMain_mono ran (Nat.le_max_left turns turns'))
  · exact prints printed

/-- The nodes that `main` declares. -/
def mainListNodes : ListHeap := fun address =>
  [none, some (ListNode.mk 2 none), some ⟨4, none⟩, some ⟨3, none⟩, some ⟨8, none⟩, some ⟨0, none⟩][address]?.join

/-- The calls of `main`. -/
def mainOperations : List Operation :=
  [.insertList 1, .insertList 2, .insertList 3, .insertList 4, .insertListPosion 3 5]

/-- `main` prints its list with the 0 in place of the 3. -/
theorem listMain_prints_iff_main :
    ∃ turns, listMain turns (some 0) mainListNodes 10 mainOperations = some [10, 2, 4, 0, 8] := by
  have fresh : ∀ operation ∈ mainOperations, mainListNodes operation.node =
      some ⟨[0, 2, 4, 3, 8, 0].getD operation.node 0, none⟩ := by
    simp only [mainOperations, List.forall_mem_cons, List.not_mem_nil, false_implies, implies_true, and_true]
    exact ⟨rfl, rfl, rfl, rfl, rfl⟩
  exact (@listMain_prints_iff _ _ _ (fun address => [0, 2, 4, 3, 8, 0].getD address 0) _ _ (by decide) fresh).mpr rfl

end KernelLearning.LinkedLists
