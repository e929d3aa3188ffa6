import KernelLearning.PollServer.Pass
import KernelLearning.PollServer.Table

/-!
# What the poll server reads

A connection that is accepted in a round is stored in the range of the pass that
follows, with the `revents` that its slot has.  In a slot up to `maxi` these are
the zero that `poll` has just written; past it nobody ever wrote them, so only in an
array that was cleared is no connection read too early.
-/

namespace KernelLearning.PollServer

open Interaction

namespace Server

variable {listenfd connfd : Int} {server : Server} {round : Round} {revents : Nat → UInt16} {i k : Nat}

/-- Every read of the round is on the descriptor of a client that `poll` reported in it. -/
def Reported (listenfd : Int) (server : Server) (round : Round) : Prop :=
  ∀ server', doPoll listenfd server round = some server' → ∀ call ∈ server'.reads,
    ∃ revents, round.poll = some revents ∧ call.1 ≤ server.maxi ∧
      (server.clientfds call.1).fd = call.2 ∧ call.2 ∈ server.clients ∧ revents call.1 &&& POLLIN ≠ 0

/-- No connection is stored past `maxi` while another descriptor is ready, in a slot whose
`revents`, which nobody wrote, have `POLLIN`. -/
def NoStale (server : Server) (round : Round) : Prop :=
  ∀ revents connfd i, round.poll = some revents → round.accepted = .connected connfd →
    ((server.polling revents).clientfds 0).readable = true → server.freeSlot = some i →
    server.maxi < i → 2 ≤ (server.polling revents).nready → (server.clientfds i).readable = false

/-! ## The revents of a slot -/

theorem polling_inside (inside : i ≤ server.maxi) : (server.polling revents).clientfds i =
    { server.clientfds i with revents := if (server.clientfds i).fd < 0 then 0 else revents i } :=
  if_pos inside

theorem polling_beyond (beyond : server.maxi < i) : (server.polling revents).clientfds i = server.clientfds i :=
  if_neg (Nat.not_le.mpr beyond)

theorem freeSlot_polling : (server.polling revents).freeSlot = server.freeSlot := by
  have same : ∀ i, ((server.polling revents).clientfds i).fd = (server.clientfds i).fd :=
    polled_fd _ revents
  simp only [freeSlot, same]

/-- After `poll`, a free slot is readable only if `poll` did not cover it. -/
theorem free_readable (revents : Nat → UInt16) (free : (server.clientfds i).fd < 0) :
    ((server.polling revents).clientfds i).readable = true ↔
      server.maxi < i ∧ (server.clientfds i).readable = true := by
  by_cases inside : i ≤ server.maxi
  · rw [polling_inside inside, if_pos free]
    simp [PollFd.readable, Nat.not_lt.mpr inside]
  · rw [polling_beyond (Nat.not_le.mp inside)]
    simp [Nat.not_le.mp inside]

/-- After `poll`, a slot that is ready is one that `poll` reported. -/
theorem ready_polling (table : server.Table listenfd) (slot : ClientSlot i)
    (ready : (server.polling revents).ready i = true) :
    i ≤ server.maxi ∧ (server.clientfds i).fd ∈ server.clients ∧ revents i &&& POLLIN ≠ 0 := by
  obtain ⟨taken, readable⟩ := Bool.and_eq_true_iff.mp ready
  simp only [decide_eq_true_eq, polled_fd] at taken
  have client : (server.clientfds i).fd ∈ server.clients := by
    cases table.slots i slot with
    | inl free => omega
    | inr client => exact client.1
  have inside : i ≤ server.maxi := by
    by_contra beyond
    have free := table.beyond i (Nat.not_le.mp beyond) slot.2
    omega
  rw [polling_inside inside, if_neg (Int.not_lt.mpr taken)] at readable
  exact ⟨inside, client, by simpa [PollFd.readable] using readable⟩

/-! ## The reads of a pass -/

theorem mem_readySlots {num : Nat} : i ∈ server.readySlots num ↔ (1 ≤ i ∧ i ≤ num) ∧ server.ready i = true := by
  rw [readySlots, List.mem_filter, List.mem_range'_1]
  have bounds : 1 ≤ i ∧ i < 1 + num ↔ 1 ≤ i ∧ i ≤ num := by omega
  rw [bounds]

/-- A pass without a new connection. -/
theorem handled_reported (table : server.Table listenfd) (call : Nat × Int)
    (member : call ∈ ((server.polling revents).handleConnection (server.polling revents).maxi round).reads) :
    call.1 ≤ server.maxi ∧ (server.clientfds call.1).fd = call.2 ∧ call.2 ∈ server.clients ∧
      revents call.1 &&& POLLIN ≠ 0 := by
  rw [handleConnection_reads] at member
  obtain ⟨i, index, rfl⟩ := List.mem_map.mp member
  obtain ⟨⟨first, last⟩, ready⟩ := mem_readySlots.mp index
  have slot : ClientSlot i := ⟨first, Nat.lt_of_le_of_lt last table.inside⟩
  obtain ⟨inside, client, reported⟩ := ready_polling table slot ready
  simp only [polled_fd]
  exact ⟨inside, trivial, client, reported⟩

/-- The new connection. -/
abbrev storing (server : Server) (revents : Nat → UInt16) (connfd : Int) (k : Nat) : Server :=
  ((server.polling revents).join connfd).storeClient k connfd

theorem storing_other (different : i ≠ k) :
    (server.storing revents connfd k).clientfds i = (server.polling revents).clientfds i := if_neg different

theorem storing_here : (server.storing revents connfd k).clientfds k =
    { (server.polling revents).clientfds k with fd := connfd, events := POLLIN } := if_pos rfl

theorem le_storing_maxi : k ≤ (server.storing revents connfd k).maxi := by
  simp only [storing, storeClient]
  split <;> omega

/-- The slot of the new connection is ready only with `revents` that nobody wrote. -/
theorem storing_ready (revents : Nat → UInt16) (nonneg : 0 ≤ connfd) (free : (server.clientfds k).fd < 0) :
    (server.storing revents connfd k).ready k = true ↔
      server.maxi < k ∧ (server.clientfds k).readable = true := by
  rw [← free_readable revents free, ready, storing_here]
  simp [nonneg, PollFd.readable]

/-! ## One round -/

/-- What a round reads was reported, if the new connection is not read with it. -/
theorem reported_of_noStale (table : server.Table listenfd) (noStale : server.NoStale round) :
    server.Reported listenfd round := by
  intro server' taken call member
  obtain ⟨_, ends⟩ := doPoll_ends taken
  cases ends with
  | pollError => contradiction
  | interrupted => contradiction
  | acceptError => contradiction
  | tooMany => contradiction
  | stored => contradiction
  | handled revents poll => exact ⟨revents, poll, handled_reported table call member⟩
  | storedAndHandled revents connfd k poll readable accepted accepts free more =>
    have stored := Table.storeClient (table.of_same (polled_fd _ revents) (polled_events _ revents) rfl rfl rfl)
      (doPoll_ends taken).1 accepts free
    obtain ⟨_, vacant, _⟩ := freeSlot_eq_some_iff.mp free
    rw [polled_fd] at vacant
    rw [freeSlot_polling] at free
    rw [handleConnection_reads] at member
    obtain ⟨i, index, rfl⟩ := List.mem_map.mp member
    obtain ⟨⟨first, last⟩, ready⟩ := mem_readySlots.mp index
    have slot : ClientSlot i := ⟨first, Nat.lt_of_le_of_lt last stored.inside⟩
    by_cases new : i = k
    · -- the new connection would be read with stale `revents`
      rw [new, storing_ready revents accepts.1 vacant] at ready
      have := noStale revents connfd k poll accepted readable free ready.1 more
      rw [this] at ready
      exact absurd ready.2 Bool.false_ne_true
    · rw [ready_congr (storing_other new)] at ready
      obtain ⟨inside, client, reported⟩ := ready_polling table slot ready
      refine ⟨revents, poll, inside, ?_, ?_, reported⟩
      · simp only [storing_other new, polled_fd]
      · simpa only [storing_other new, polled_fd] using client

/-- A new connection that is read with stale `revents` was not reported. -/
theorem noStale_of_reported {server' : Server}
    (taken : doPoll listenfd server round = some server') (reported : server.Reported listenfd round) :
    server.NoStale round := by
  intro revents connfd k poll accepted readable free beyond more
  by_contra stale
  rw [Bool.not_eq_false] at stale
  have reads := reported server' taken
  -- the other ends of a round do not go with what is assumed of it
  obtain ⟨_, ends⟩ := doPoll_ends taken
  cases ends with
  | pollError poll' => simp [poll] at poll'
  | interrupted _ _ _ accepted' => simp [accepted] at accepted'
  | acceptError _ _ _ accepted' => simp [accepted] at accepted'
  | tooMany _ _ _ _ _ _ full => simp [freeSlot_polling, free] at full
  | stored revents' _ _ poll' _ _ _ _ few =>
    rw [poll, Option.some.injEq] at poll'
    rw [← poll'] at few
    omega
  | handled revents' poll' notReadable =>
    rw [poll, Option.some.injEq] at poll'
    rw [← poll', readable] at notReadable
    contradiction
  | storedAndHandled revents' connfd' k' poll' _ _ accepts free' =>
    rw [freeSlot_polling, free, Option.some.injEq] at free'
    subst free'
    obtain ⟨⟨first, _⟩, vacant, _⟩ := freeSlot_eq_some_iff.mp free
    have ready := (storing_ready revents' accepts.1 vacant).mpr ⟨beyond, stale⟩
    obtain ⟨_, _, inside, _⟩ := reads (k, ((server.storing revents' connfd' k).clientfds k).fd) (by
      rw [handleConnection_reads]
      exact List.mem_append_right _ (List.mem_map.mpr
        ⟨k, mem_readySlots.mpr ⟨⟨first, le_storing_maxi⟩, ready⟩, rfl⟩))
    omega

/-! ## Slots past maxi -/

/-- Past `maxi` the `revents` are those that the memory of the array held. -/
def Untouched (memory : Nat → PollFd) (server : Server) : Prop :=
  ∀ i, server.maxi < i → (server.clientfds i).revents = (memory i).revents

theorem untouched_init (listenfd : Int) (memory : Nat → PollFd) : (init listenfd memory).Untouched memory := by
  intro i _
  simp only [init]
  split
  · rfl
  · split <;> rfl

variable {memory : Nat → PollFd}

theorem Untouched.polling (untouched : server.Untouched memory) (revents : Nat → UInt16) :
    (server.polling revents).Untouched memory := by
  intro i beyond
  have beyond : server.maxi < i := beyond
  rw [polling_beyond beyond]
  exact untouched i beyond

theorem Untouched.storing (untouched : server.Untouched memory) (revents : Nat → UInt16) (connfd : Int) (k : Nat) :
    (server.storing revents connfd k).Untouched memory := by
  intro i beyond
  have later : server.maxi < i ∧ k < i := by
    simp only [Server.storing, storeClient] at beyond
    split at beyond
    · rename_i higher
      exact ⟨Nat.lt_trans higher beyond, beyond⟩
    · rename_i notHigher
      exact ⟨beyond, Nat.lt_of_le_of_lt (Nat.not_lt.mp notHigher) beyond⟩
  rw [storing_other (Nat.ne_of_gt later.2)]
  exact untouched.polling revents i later.1

/-- A turn of `handle_connection` leaves `maxi` and every `revents` alone. -/
theorem handleTurn_revents (state : Server × List UInt8) (round : Round) (i j : Nat) :
    (handleTurn round state i).1.maxi = state.1.maxi ∧
      ((handleTurn round state i).1.clientfds j).revents = (state.1.clientfds j).revents := by
  simp only [handleTurn]
  split
  · exact ⟨rfl, rfl⟩
  split
  · split
    · refine ⟨rfl, ?_⟩
      simp only [closeClient, setSlot]
      split
      · rename_i here
        rw [here]
      · rfl
    · exact ⟨rfl, rfl⟩
  · exact ⟨rfl, rfl⟩

theorem Untouched.handleConnection (untouched : server.Untouched memory) (num : Nat) (round : Round) :
    (server.handleConnection num round).Untouched memory := by
  have loop : ∀ (indices : List Nat) (state : Server × List UInt8), state.1.Untouched memory →
      (indices.foldl (handleTurn round) state).1.Untouched memory := by
    intro indices
    induction indices with
    | nil => exact fun _ untouched => untouched
    | cons index indices inductionHypothesis =>
      intro state untouched
      refine inductionHypothesis _ fun j beyond => ?_
      obtain ⟨maxi, same⟩ := handleTurn_revents state round index j
      rw [maxi] at beyond
      rw [same]
      exact untouched j beyond
  exact loop _ _ untouched

theorem Untouched.doPoll (untouched : server.Untouched memory) {server' : Server}
    (taken : Server.doPoll listenfd server round = some server') : server'.Untouched memory := by
  obtain ⟨_, ends⟩ := doPoll_ends taken
  cases ends with
  | pollError => exact untouched
  | interrupted revents => exact untouched.polling revents
  | acceptError revents => exact untouched.polling revents
  | tooMany revents => exact untouched.polling revents
  | stored revents connfd i => exact untouched.storing revents connfd i
  | storedAndHandled revents connfd i => exact (untouched.storing revents connfd i).handleConnection _ round
  | handled revents => exact (untouched.polling revents).handleConnection _ round

/-! ## Every run -/

variable {past : List (Server × Round)} {last : Server}

/-- Every read of a run is on a descriptor that `poll` reported, exactly when no round reads a new
connection with stale `revents`. -/
theorem reads_reported_iff (execution : Execution (doPoll listenfd) (init listenfd memory) past last) :
    Throughout (Reported listenfd) past ↔ Throughout NoStale past := by
  refine execution.throughout_iff (Table listenfd) (table_init listenfd memory) ?_ ?_
  · exact fun server round server' table _ taken => table.doPoll taken
  · exact fun server round server' table taken =>
      ⟨noStale_of_reported taken, reported_of_noStale table⟩

/-- In an array without `POLLIN` no connection is read too early. -/
theorem noStale_of_cleared (execution : Execution (doPoll listenfd) (init listenfd memory) past last)
    (cleared : ∀ i, (memory i).readable = false) : Throughout NoStale past := by
  have untouched := execution.always_before (Untouched memory) (untouched_init listenfd memory)
    fun _ _ _ untouched taken => untouched.doPoll taken
  intro taken member revents connfd i _ _ _ _ beyond _
  rw [PollFd.readable, untouched taken member i beyond]
  exact cleared i

/-- The client is ready while another one connects. -/
def secondRound : Round where
  poll := some fun _ => POLLIN
  accepted := .connected 6
  reads _ := .failed
  overrun _ _ := []

/-- An empty array: the first client is read while the second one connects, which is not read yet. -/
theorem reads_reported_clean : ∃ past last, Execution (doPoll 3) (init 3 emptyMemory) past last ∧
    (1, 5) ∈ last.reads ∧ Throughout (Reported 3) past := by
  have first : ∃ next, doPoll 3 (init 3 emptyMemory) firstRound = some next ∧
      ∃ later, doPoll 3 next secondRound = some later ∧ (1, 5) ∈ later.reads := by
    refine ⟨_, rfl, _, rfl, ?_⟩
    decide
  obtain ⟨next, first, later, second, read⟩ := first
  have execution := (Execution.start.followedBy firstRound first).followedBy secondRound second
  refine ⟨_, later, execution, read, (reads_reported_iff execution).mpr ?_⟩
  exact noStale_of_cleared execution fun _ => by simp [emptyMemory, PollFd.readable]

/-- An array where `POLLIN` was left in the `revents`. -/
def usedMemory : Nat → PollFd := fun _ => ⟨0, 0, POLLIN⟩

/-- The second client is read in the round in which it connects. -/
theorem not_reads_reported : ∃ past last, Execution (doPoll 3) (init 3 usedMemory) past last ∧
    ¬ Throughout (Reported 3) past := by
  have first : ∃ next, doPoll 3 (init 3 usedMemory) firstRound = some next ∧
      ∃ later, doPoll 3 next secondRound = some later ∧ (2, 6) ∈ later.reads ∧ next.maxi = 1 := by
    refine ⟨_, rfl, _, rfl, ?_⟩
    decide
  obtain ⟨next, first, later, second, read, maxi⟩ := first
  have execution := (Execution.start.followedBy firstRound first).followedBy secondRound second
  refine ⟨_, later, execution, fun reported => ?_⟩
  obtain ⟨_, _, inside, _⟩ := reported (next, secondRound) (by simp) later second (2, 6) read
  rw [maxi] at inside
  omega

end Server

end KernelLearning.PollServer
