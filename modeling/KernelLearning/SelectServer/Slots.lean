import KernelLearning.SelectServer.Server
import KernelLearning.Interaction.Executions

/-!
# The table of clients and its counter

`cli_cnt` counts the clients as long as none leaves: accepting one fills a slot
and counts it, and a slot that is freed is not counted back.
-/

namespace KernelLearning.SelectServer

open Interaction

namespace Server

/-- The occupied slots. -/
def occupied (server : Server) : Nat := server.ctx.clifds.countP (0 ≤ ·)

theorem occupied_le (server : Server) : server.occupied ≤ SIZE := Vector.countP_le_size

/-! ## Single slots -/

theorem slot_eq {server : Server} (beyond : Nat → Int) {i : Nat} (inside : i < SIZE) :
    server.slot beyond i = server.ctx.clifds[i] := by
  simp [slot, inside]

theorem setSlot_clifds {server : Server} {i : Nat} (inside : i < SIZE) (fd : Int) :
    (server.setSlot i fd).ctx.clifds = server.ctx.clifds.set i fd := by
  ext index bound
  simp [setSlot, Vector.getElem_setIfInBounds, Vector.getElem_set]

theorem occupied_fill {server : Server} {i : Nat} (inside : i < SIZE) (free : server.ctx.clifds[i] < 0) {fd : Int}
    (nonneg : 0 ≤ fd) : (server.setSlot i fd).occupied = server.occupied + 1 := by
  rw [occupied, setSlot_clifds inside, Vector.countP_set]
  simp [Int.not_le.mpr free, nonneg, occupied]

theorem occupied_free {server : Server} {i : Nat} (inside : i < SIZE) (taken : 0 ≤ server.ctx.clifds[i]) :
    (server.setSlot i (-1)).occupied < server.occupied := by
  have positive : 0 < server.occupied :=
    Vector.countP_pos_iff.mpr ⟨_, Vector.getElem_mem inside, by simpa using taken⟩
  have one : (server.setSlot i (-1)).occupied = server.occupied - 1 := by
    rw [occupied, setSlot_clifds inside, Vector.countP_set]
    simp [taken, occupied]
  omega

/-! ## Watching and accepting -/

/-- Filling the set reads the table and the counter only. -/
theorem watch_kept (srvfd : Int) (turn : Turn) (server : Server) :
    (server.watch srvfd turn).ctx.cliCnt = server.ctx.cliCnt ∧
      (server.watch srvfd turn).ctx.clifds = server.ctx.clifds := by
  have loop : ∀ (indices : List Nat) (state : Server),
      (indices.foldl (watchTurn turn) state).ctx.cliCnt = state.ctx.cliCnt ∧
        (indices.foldl (watchTurn turn) state).ctx.clifds = state.ctx.clifds := by
    intro indices
    induction indices with
    | nil => simp
    | cons index indices inductionHypothesis => exact fun state => inductionHypothesis (watchTurn turn state index)
  exact loop _ _

/-- The table and the counter, which must agree and stay within the table. -/
def Counted (server : Server) : Prop :=
  server.ctx.cliCnt = server.occupied ∧ server.ctx.cliCnt ≤ SIZE

theorem accept_counted {server : Server} (counted : server.Counted) {accepted : Option Int}
    (accepts : server.Accepts accepted) : (server.acceptClientProc accepted).Counted := by
  cases accepted with
  | none => exact counted
  | some clifd =>
    simp only [acceptClientProc]
    split
    · exact counted
    · rename_i i found
      rw [List.find?_range_eq_some] at found
      obtain ⟨free, inside, _⟩ := found
      have inside : i < SIZE := List.mem_range.mp inside
      have free : server.ctx.clifds[i] < 0 := by
        simpa only [slot_eq _ inside, decide_eq_true_eq] using free
      have filled := occupied_fill inside free (accepts clifd rfl).1
      have room := (server.setSlot i clifd).occupied_le
      have same : server.ctx.cliCnt + 1 = (server.setSlot i clifd).occupied := by
        rw [filled, counted.1]
      exact ⟨same, by rw [← same] at room; exact room⟩

/-! ## Receiving -/

/-- The client at the index is watched, ready and gone. -/
def Gone (turn : Turn) (server : Server) (i : Nat) : Prop :=
  0 ≤ server.slot turn.beyond i ∧ server.slot turn.beyond i ∈ server.ctx.allfds ∧ turn.reads i = []

/-- A turn that finds the client there, or no client, leaves the context alone. -/
theorem recvTurn_present {turn : Turn} {state : Server × List UInt8} {i : Nat} (present : ¬ Gone turn state.1 i) :
    (recvTurn turn state i).1.ctx = state.1.ctx := by
  simp only [recvTurn]
  split
  · rfl
  rename_i nonneg
  split
  · rename_i ready
    split
    · rename_i none
      -- `n <= 0`: nothing was read
      have nothing : turn.reads i = [] := by
        simpa [MAXLINE] using none
      exact absurd ⟨Int.not_lt.mp nonneg, ready, nothing⟩ present
    · rfl
  · rfl

theorem recvTurn_gone {turn : Turn} {state : Server × List UInt8} {i : Nat} (gone : Gone turn state.1 i) :
    recvTurn turn state i = (state.1.dropClient i (state.1.slot turn.beyond i), state.2) := by
  obtain ⟨nonneg, ready, nothing⟩ := gone
  simp [recvTurn, Int.not_lt.mpr nonneg, ready, nothing]

theorem recvTurn_cliCnt (turn : Turn) (state : Server × List UInt8) (i : Nat) :
    (recvTurn turn state i).1.ctx.cliCnt = state.1.ctx.cliCnt := by
  by_cases gone : Gone turn state.1 i
  · rw [recvTurn_gone gone]
    rfl
  · rw [recvTurn_present gone]

/-- A client that is gone gives up its slot. -/
theorem recvTurn_gone_occupied {turn : Turn} {state : Server × List UInt8} {i : Nat} (inside : i < SIZE)
    (gone : Gone turn state.1 i) : (recvTurn turn state i).1.occupied < state.1.occupied := by
  have taken : 0 ≤ state.1.ctx.clifds[i] := by
    rw [← slot_eq turn.beyond inside]
    exact gone.1
  rw [recvTurn_gone gone]
  exact occupied_free inside taken

theorem recvTurn_occupied_le {turn : Turn} (state : Server × List UInt8) {i : Nat} (inside : i < SIZE) :
    (recvTurn turn state i).1.occupied ≤ state.1.occupied := by
  by_cases gone : Gone turn state.1 i
  · exact Nat.le_of_lt (recvTurn_gone_occupied inside gone)
  · rw [occupied, recvTurn_present gone]
    exact Nat.le_refl _

/-- With nobody gone, the loop leaves the context alone. -/
theorem recvLoop_present {turn : Turn} (indices : List Nat) (state : Server × List UInt8)
    (present : ∀ i ∈ indices, ¬ Gone turn state.1 i) :
    (indices.foldl (recvTurn turn) state).1.ctx = state.1.ctx := by
  induction indices generalizing state with
  | nil => rfl
  | cons index indices inductionHypothesis =>
    simp only [List.mem_cons, forall_eq_or_imp] at present
    have same := recvTurn_present present.1
    rw [List.foldl_cons, inductionHypothesis, same]
    intro i member
    have here := present.2 i member
    simp only [Gone, slot, same] at here ⊢
    exact here

theorem recvLoop_cliCnt {turn : Turn} (indices : List Nat) (state : Server × List UInt8) :
    (indices.foldl (recvTurn turn) state).1.ctx.cliCnt = state.1.ctx.cliCnt := by
  induction indices generalizing state with
  | nil => rfl
  | cons index indices inductionHypothesis =>
    rw [List.foldl_cons, inductionHypothesis, recvTurn_cliCnt]

theorem recvLoop_occupied_le {turn : Turn} (indices : List Nat) (state : Server × List UInt8)
    (inside : ∀ i ∈ indices, i < SIZE) :
    (indices.foldl (recvTurn turn) state).1.occupied ≤ state.1.occupied := by
  induction indices generalizing state with
  | nil => exact Nat.le_refl _
  | cons index indices inductionHypothesis =>
    simp only [List.mem_cons, forall_eq_or_imp] at inside
    exact Nat.le_trans (inductionHypothesis _ inside.2) (recvTurn_occupied_le state inside.1)

/-- With somebody gone, the loop frees a slot. -/
theorem recvLoop_gone {turn : Turn} (indices : List Nat) (state : Server × List UInt8)
    (inside : ∀ i ∈ indices, i < SIZE) (gone : ∃ i ∈ indices, Gone turn state.1 i) :
    (indices.foldl (recvTurn turn) state).1.occupied < state.1.occupied := by
  induction indices generalizing state with
  | nil => simp at gone
  | cons index indices inductionHypothesis =>
    simp only [List.mem_cons, forall_eq_or_imp] at inside
    rw [List.foldl_cons]
    by_cases here : Gone turn state.1 index
    · exact Nat.lt_of_le_of_lt (recvLoop_occupied_le indices _ inside.2) (recvTurn_gone_occupied inside.1 here)
    · -- the first client that is gone comes later, in the same context
      have same := recvTurn_present here
      obtain ⟨i, member, later⟩ := gone
      have member : i ∈ indices := by
        cases List.mem_cons.mp member with
        | inl now =>
          rw [now] at later
          exact absurd later here
        | inr member => exact member
      have less := inductionHypothesis (recvTurn turn state index) inside.2
        ⟨i, member, by simpa only [Gone, slot, same] using later⟩
      simpa only [occupied, same] using less

/-- Receiving keeps the counter right exactly when nobody is gone. -/
theorem recv_counted_iff {turn : Turn} {server : Server} (counted : server.Counted)
    (below : server.ctx.cliCnt < SIZE) :
    (server.recvClientMsg turn).Counted ↔ ∀ i ∈ server.recvIndices, ¬ Gone turn server i := by
  have inside : ∀ i ∈ server.recvIndices, i < SIZE := by
    intro i member
    have := List.mem_range.mp member
    omega
  constructor
  · intro after i member gone
    have fewer : (server.recvClientMsg turn).occupied < server.occupied :=
      recvLoop_gone _ _ inside ⟨i, member, gone⟩
    have count : (server.recvClientMsg turn).ctx.cliCnt = server.ctx.cliCnt := recvLoop_cliCnt _ _
    have before := counted.1
    have after := after.1
    omega
  · intro present
    have same : (server.recvClientMsg turn).ctx = server.ctx := recvLoop_present _ _ present
    simp only [Counted, occupied, same]
    exact counted

/-! ## One turn of the server -/

/-- The turn goes to `recv_client_msg`, with these descriptors ready. -/
def Receives (srvfd : Int) (turn : Turn) (ready : List Int) : Prop :=
  turn.select = some ready ∧ ready ≠ [] ∧ srvfd ∉ ready

/-- What `select` leaves in the set. -/
def selected (srvfd : Int) (server : Server) (turn : Turn) (ready : List Int) : Server :=
  let server := server.watch srvfd turn
  { server with ctx := { server.ctx with allfds := ready } }

/-- What a turn does. -/
inductive Turned (srvfd : Int) (server : Server) (turn : Turn) (server' : Server) : Prop where
  | failed (select : turn.select = none) (after : server' = { server.watch srvfd turn with running := false })
  | timeout (select : turn.select = some []) (after : server' = server.selected srvfd turn [])
  | accepted (ready : List Int) (select : turn.select = some ready) (member : srvfd ∈ ready)
      (accepts : (server.selected srvfd turn ready).Accepts turn.accepted)
      (after : server' = (server.selected srvfd turn ready).acceptClientProc turn.accepted)
  | received (ready : List Int) (receives : Receives srvfd turn ready)
      (after : server' = (server.selected srvfd turn ready).recvClientMsg turn)

theorem turned {srvfd : Int} {server server' : Server} {turn : Turn}
    (taken : handleClientProc srvfd server turn = some server') : Turned srvfd server turn server' := by
  simp only [handleClientProc] at taken
  split at taken
  · cases taken
  split at taken
  · rename_i select
    exact .failed select (Option.some.inj taken).symm
  · rename_i ready select
    split at taken
    · split at taken
      · rename_i none
        subst none
        exact .timeout select (Option.some.inj taken).symm
      rename_i some
      split at taken
      · rename_i member
        split at taken
        · rename_i accepts
          exact .accepted ready select member accepts (Option.some.inj taken).symm
        · cases taken
      · rename_i member
        exact .received ready ⟨select, some, member⟩ (Option.some.inj taken).symm
    · cases taken

/-! ## The counter over whole runs -/

/-- The indices of both loops stay inside the table. -/
def IndicesBelow (srvfd : Int) (server : Server) (turn : Turn) : Prop :=
  (∀ i ∈ server.watchIndices, i < SIZE) ∧
    ∀ ready, Receives srvfd turn ready → ∀ i ∈ server.recvIndices, i < SIZE

/-- Messages are received with a slot to spare, and from clients that are still there. -/
def Steady (srvfd : Int) (server : Server) (turn : Turn) : Prop :=
  ∀ ready, Receives srvfd turn ready →
    server.ctx.cliCnt < SIZE ∧
      ∀ i ≤ server.ctx.cliCnt, ¬ (0 ≤ server.slot turn.beyond i ∧ server.slot turn.beyond i ∈ ready ∧ turn.reads i = [])

theorem selected_counted {srvfd : Int} {server : Server} (counted : server.Counted) (turn : Turn)
    (ready : List Int) : (server.selected srvfd turn ready).Counted := by
  obtain ⟨cliCnt, clifds⟩ := watch_kept srvfd turn server
  simp only [Counted, occupied, selected, cliCnt, clifds]
  exact counted

theorem init_counted (srvfd : Int) : (Server.init srvfd).Counted := by
  simp [Counted, occupied, Server.init, Vector.countP_replicate]

/-- The table of the selected server is the one before the turn. -/
theorem gone_selected {srvfd : Int} {server : Server} {turn : Turn} {ready : List Int} {i : Nat} :
    Gone turn (server.selected srvfd turn ready) i ↔
      0 ≤ server.slot turn.beyond i ∧ server.slot turn.beyond i ∈ ready ∧ turn.reads i = [] := by
  simp only [Gone, slot, selected, (watch_kept srvfd turn server).2]

/-- A turn that receives nothing keeps the counter and the indices right. -/
theorem turn_without_messages {srvfd : Int} {server server' : Server} {turn : Turn} (counted : server.Counted)
    (none : ∀ ready, ¬ Receives srvfd turn ready) (after : server'.Counted) :
    IndicesBelow srvfd server turn ∧ server'.Counted ↔ Steady srvfd server turn := by
  have below : ∀ i ∈ server.watchIndices, i < SIZE := by
    intro i member
    exact Nat.lt_of_lt_of_le (List.mem_range.mp member) counted.2
  constructor
  · intro _ ready receives
    exact absurd receives (none ready)
  · intro _
    exact ⟨⟨below, fun ready receives => absurd receives (none ready)⟩, after⟩

theorem turn_counted_iff {srvfd : Int} {server server' : Server} {turn : Turn} (counted : server.Counted)
    (taken : handleClientProc srvfd server turn = some server') :
    IndicesBelow srvfd server turn ∧ server'.Counted ↔ Steady srvfd server turn := by
  cases turned taken with
  | failed select after =>
    refine turn_without_messages counted ?_ ?_
    · rintro ready ⟨some, _, _⟩
      rw [select] at some
      cases some
    · rw [after]
      exact selected_counted counted turn []
  | timeout select after =>
    refine turn_without_messages counted ?_ ?_
    · rintro ready ⟨some, nonempty, _⟩
      rw [select] at some
      exact nonempty (Option.some.inj some).symm
    · rw [after]
      exact selected_counted counted turn []
  | accepted ready select member accepts after =>
    refine turn_without_messages counted ?_ ?_
    · rintro ready' ⟨some, _, notMember⟩
      rw [select] at some
      obtain rfl := Option.some.inj some
      exact notMember member
    · rw [after]
      exact accept_counted (selected_counted counted turn ready) accepts
  | received ready receives after =>
    have counter : (server.selected srvfd turn ready).ctx.cliCnt = server.ctx.cliCnt :=
      (watch_kept srvfd turn server).1
    have counted' : (server.selected srvfd turn ready).Counted := selected_counted counted turn ready
    rw [after]
    constructor
    · rintro ⟨⟨_, below⟩, right⟩ ready' receives'
      obtain rfl : ready = ready' := Option.some.inj (receives.1.symm.trans receives'.1)
      -- the loop goes up to and with `cli_cnt`
      have room : server.ctx.cliCnt < SIZE := below ready receives _ (List.mem_range.mpr (Nat.lt_succ_self _))
      refine ⟨room, ?_⟩
      intro i bound gone
      refine (recv_counted_iff counted' (by rw [counter]; exact room)).mp right i ?_ (gone_selected.mpr gone)
      rw [recvIndices, counter, List.mem_range]
      exact Nat.lt_succ_of_le bound
    · intro steady
      obtain ⟨room, present⟩ := steady ready receives
      refine ⟨⟨?_, ?_⟩, ?_⟩
      · intro i member
        exact Nat.lt_of_lt_of_le (List.mem_range.mp member) counted.2
      · intro _ _ i member
        exact Nat.lt_of_lt_of_le (List.mem_range.mp member) room
      · refine (recv_counted_iff counted' (by rw [counter]; exact room)).mpr ?_
        intro i member gone
        rw [recvIndices, counter, List.mem_range] at member
        exact present i (Nat.le_of_lt_succ member) (gone_selected.mp gone)

/-- The counter is the number of clients, and no index leaves the table, exactly in the runs in
which messages are received with a slot to spare and no client leaves. -/
theorem cliCnt_iff {srvfd : Int} {past : List (Server × Turn)} {last : Server}
    (execution : Execution (handleClientProc srvfd) (Server.init srvfd) past last) :
    ((∀ server ∈ reached past last, server.Counted) ∧ Throughout (IndicesBelow srvfd) past) ↔
      Throughout (Steady srvfd) past := by
  rw [execution.forall_reached_iff, and_iff_right (init_counted srvfd), and_comm, ← throughout_and]
  refine execution.throughout_iff Counted (init_counted srvfd) ?_ ?_
  · intro server turn server' counted steady taken
    exact ((turn_counted_iff counted taken).mpr steady).2
  · intro server turn server' counted taken
    simp only [taken, Option.some.injEq, forall_eq']
    exact turn_counted_iff counted taken

/-- A turn of a server that listens on 3, in which a client connects. -/
def connects (clifd : Int) : Turn where
  select := some [3]
  accepted := some clifd
  reads := fun _ => []
  beyond := fun _ => -1

/-- A turn in which the client sends `bytes`, or leaves if there are none. -/
def sends (clifd : Int) (bytes : List UInt8) : Turn where
  select := some [clifd]
  accepted := none
  reads := fun _ => bytes
  beyond := fun _ => -1

/-- A client connects and sends a message. -/
theorem cliCnt_iff_message :
    ∃ past last, Execution (handleClientProc 3) (Server.init 3) past last ∧ past.length = 2 ∧
      (∀ server ∈ reached past last, server.Counted) ∧ Throughout (IndicesBelow 3) past := by
  have begun : Execution (handleClientProc 3) (Server.init 3) [] (Server.init 3) := .start
  have execution := (begun.followedBy (connects 4) rfl).followedBy (sends 4 [104, 105]) rfl
  refine ⟨_, _, execution, rfl, (cliCnt_iff execution).mpr ?_⟩
  simp only [List.nil_append, throughout_append, throughout_singleton]
  constructor
  · rintro ready ⟨select, _, notMember⟩
    cases select
    exact absurd (List.mem_singleton_self _) notMember
  · rintro ready ⟨select, _, _⟩
    cases select
    refine ⟨by decide, ?_⟩
    rintro i _ ⟨_, _, nothing⟩
    cases nothing

/-- A client connects and leaves, and is still counted. -/
theorem left_client_counted :
    ¬ ∀ past last, Execution (handleClientProc 3) (Server.init 3) past last →
      (∀ server ∈ reached past last, server.Counted) ∧ Throughout (IndicesBelow 3) past := by
  intro claim
  have begun : Execution (handleClientProc 3) (Server.init 3) [] (Server.init 3) := .start
  have execution := (begun.followedBy (connects 4) rfl).followedBy (sends 4 []) rfl
  have counted := (claim _ _ execution).1 _ (List.mem_append_right _ (List.mem_singleton_self _))
  exact absurd counted.1 (by decide)

end Server

end KernelLearning.SelectServer
