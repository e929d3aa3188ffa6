import Mathlib.Data.List.Nodup
import Mathlib.Data.List.Perm.Subperm
import KernelLearning.PollServer.Server
import KernelLearning.Interaction.Executions

/-!
# The table of the poll server

Slots are given out lowest first, freed by `handle_connection` and covered by
`maxi`, which never falls.  The descriptors of the table are those of the clients,
each once.
-/

namespace KernelLearning.PollServer

open Interaction

namespace Server

/-- A slot that a client can have. -/
abbrev ClientSlot (i : Nat) : Prop := 1 ≤ i ∧ i < OPEN_MAX

/-- The table and its clients.  The last client of too many has no slot, and the process exits. -/
structure Table (listenfd : Int) (server : Server) : Prop where
  listening : (server.clientfds 0).fd = listenfd ∧ (server.clientfds 0).events = POLLIN
  inside : server.maxi < OPEN_MAX
  beyond : ∀ i, server.maxi < i → i < OPEN_MAX → (server.clientfds i).fd = -1
  slots : ∀ i, ClientSlot i → (server.clientfds i).fd = -1 ∨
    (server.clientfds i).fd ∈ server.clients ∧ (server.clientfds i).events = POLLIN
  apart : ∀ i j, ClientSlot i → ClientSlot j → 0 ≤ (server.clientfds i).fd →
    (server.clientfds i).fd = (server.clientfds j).fd → i = j
  nonneg : ∀ fd ∈ server.clients, 0 ≤ fd
  distinct : server.clients.Nodup
  seated : server.running = true ∨ server.clients.length < OPEN_MAX →
    ∀ fd ∈ server.clients, ∃ i, ClientSlot i ∧ (server.clientfds i).fd = fd

variable {listenfd connfd : Int} {server : Server} {round : Round} {i : Nat}

/-! ## The table at the start, and what leaves it alone -/

theorem table_init (listenfd : Int) (memory : Nat → PollFd) : (init listenfd memory).Table listenfd := by
  have free : ∀ i, 1 ≤ i → i < OPEN_MAX → ((init listenfd memory).clientfds i).fd = -1 := by
    intro i first last
    simp only [init, if_neg (Nat.ne_of_gt first), if_pos last]
  exact {
    listening := by simp [init]
    inside := by simp [init, OPEN_MAX]
    beyond := fun i first last => free i (Nat.lt_of_le_of_lt (Nat.zero_le _) first) last
    slots := fun i slot => .inl (free i slot.1 slot.2)
    apart := fun i j slot _ taken _ => by
      rw [free i slot.1 slot.2] at taken
      contradiction
    nonneg := by simp [init]
    distinct := by simp [init]
    seated := by simp [init] }

/-- The table does not depend on the `revents`. -/
theorem Table.of_same (table : server.Table listenfd) {server' : Server}
    (fds : ∀ i, (server'.clientfds i).fd = (server.clientfds i).fd)
    (events : ∀ i, (server'.clientfds i).events = (server.clientfds i).events)
    (maxi : server'.maxi = server.maxi) (clients : server'.clients = server.clients)
    (running : server'.running = server.running) : server'.Table listenfd where
  listening := by simpa only [fds, events] using table.listening
  inside := by simpa only [maxi] using table.inside
  beyond := by simpa only [fds, maxi] using table.beyond
  slots := by simpa only [fds, events, clients] using table.slots
  apart := by simpa only [fds] using table.apart
  nonneg := by simpa only [clients] using table.nonneg
  distinct := by simpa only [clients] using table.distinct
  seated := by simpa only [fds, clients, running] using table.seated

theorem polled_fd (server : Server) (revents : Nat → UInt16) (i : Nat) :
    ((server.polled revents).clientfds i).fd = (server.clientfds i).fd := by
  simp only [polled]
  split <;> rfl

theorem polled_events (server : Server) (revents : Nat → UInt16) (i : Nat) :
    ((server.polled revents).clientfds i).events = (server.clientfds i).events := by
  simp only [polled]
  split <;> rfl

theorem Table.polled (table : server.Table listenfd) (revents : Nat → UInt16) :
    (server.polled revents).Table listenfd :=
  table.of_same (polled_fd server revents) (polled_events server revents) rfl rfl rfl

theorem Table.exit (table : server.Table listenfd) (running : server.running = true) :
    server.exit.Table listenfd :=
  { table with seated := fun _ => table.seated (.inl running) }

/-! ## Closing a client -/

theorem Table.closeClient (table : server.Table listenfd) (running : server.running = true)
    (slot : ClientSlot i) (taken : 0 ≤ (server.clientfds i).fd) :
    (server.closeClient i).Table listenfd := by
  have other : ∀ j, j ≠ i → (server.closeClient i).clientfds j = server.clientfds j :=
    fun j different => if_neg different
  have freed : ((server.closeClient i).clientfds i).fd = -1 := by simp [Server.closeClient, setSlot]
  -- the client leaves with its slot
  have remaining : ∀ fd, fd ∈ (server.closeClient i).clients ↔ fd ≠ (server.clientfds i).fd ∧ fd ∈ server.clients :=
    fun fd => table.distinct.mem_erase_iff
  exact {
    listening := by
      rw [other 0 (Nat.ne_of_lt slot.1)]
      exact table.listening
    inside := table.inside
    beyond := fun j first last => by
      by_cases same : j = i
      · rw [same]
        exact freed
      · rw [other j same]
        exact table.beyond j first last
    slots := fun j within => by
      by_cases same : j = i
      · rw [same]
        exact .inl freed
      · rw [other j same, remaining]
        refine (table.slots j within).imp_right fun client => ⟨⟨?_, client.1⟩, client.2⟩
        -- a client elsewhere is another one, since no two slots have one descriptor
        intro equal
        exact same (table.apart i j slot within taken equal.symm).symm
    apart := fun j k first second nonneg equal => by
      have notFirst : j ≠ i := by
        intro same
        rw [same, freed] at nonneg
        contradiction
      have notSecond : k ≠ i := by
        intro same
        rw [equal, same, freed] at nonneg
        contradiction
      rw [other j notFirst] at nonneg equal
      rw [other k notSecond] at equal
      exact table.apart j k first second nonneg equal
    nonneg := fun fd member => table.nonneg fd ((remaining fd).mp member).2
    distinct := table.distinct.erase _
    seated := fun _ fd member => by
      obtain ⟨different, member⟩ := (remaining fd).mp member
      obtain ⟨j, within, found⟩ := table.seated (.inl running) fd member
      refine ⟨j, within, ?_⟩
      rw [other j]
      · exact found
      · intro same
        rw [same] at found
        exact different found.symm }

/-- One turn of `handle_connection`. -/
theorem Table.handleTurn {state : Server × List UInt8} (table : state.1.Table listenfd) (round : Round)
    (running : state.1.running = true) (slot : ClientSlot i) :
    (Server.handleTurn round state i).1.Table listenfd ∧ (Server.handleTurn round state i).1.running = true := by
  simp only [Server.handleTurn]
  split
  · exact ⟨table, running⟩
  rename_i nonneg
  split
  · split
    · exact ⟨Table.closeClient (table.of_same (fun _ => rfl) (fun _ => rfl) rfl rfl rfl) running slot
        (Int.not_lt.mp nonneg), running⟩
    · exact ⟨table.of_same (fun _ => rfl) (fun _ => rfl) rfl rfl rfl, running⟩
  · exact ⟨table, running⟩

theorem Table.handleConnection (table : server.Table listenfd) (running : server.running = true)
    {num : Nat} (inside : num < OPEN_MAX) (round : Round) :
    (server.handleConnection num round).Table listenfd := by
  have loop : ∀ (indices : List Nat) (state : Server × List UInt8), (∀ i ∈ indices, ClientSlot i) →
      state.1.Table listenfd → state.1.running = true →
      (indices.foldl (Server.handleTurn round) state).1.Table listenfd := by
    intro indices
    induction indices with
    | nil => exact fun state _ table _ => table
    | cons index indices inductionHypothesis =>
      intro state within table running
      rw [List.forall_mem_cons] at within
      have turn := table.handleTurn round running within.1
      exact inductionHypothesis _ within.2 turn.1 turn.2
  -- the loop visits slots of clients only
  refine loop _ _ ?_ table running
  intro i member
  have bounds := List.mem_range'_1.mp member
  exact ⟨bounds.1, by omega⟩

/-! ## Storing a client -/

theorem freeSlot_eq_some_iff : server.freeSlot = some i ↔
    ClientSlot i ∧ (server.clientfds i).fd < 0 ∧ ∀ j, 1 ≤ j → j < i → 0 ≤ (server.clientfds j).fd := by
  rw [freeSlot, List.find?_range'_eq_some]
  simp only [decide_eq_true_eq, List.mem_range'_1, Bool.not_eq_true', decide_eq_false_iff_not, Int.not_lt]
  constructor
  · rintro ⟨free, ⟨first, last⟩, before⟩
    exact ⟨⟨first, by omega⟩, free, before⟩
  · rintro ⟨⟨first, last⟩, free, before⟩
    exact ⟨free, ⟨first, by omega⟩, before⟩

/-- With no slot free, every slot has a client of its own. -/
theorem Table.full (table : server.Table listenfd) (full : server.freeSlot = none) :
    OPEN_MAX ≤ server.clients.length + 1 := by
  rw [freeSlot, List.find?_eq_none] at full
  have taken : ∀ i, ClientSlot i → 0 ≤ (server.clientfds i).fd := by
    intro i slot
    have := full i (List.mem_range'_1.mpr ⟨slot.1, by have := slot.2; omega⟩)
    simpa only [decide_eq_true_eq, Int.not_lt] using this
  let fds : List Int := (List.range' 1 (OPEN_MAX - 1)).map fun i => (server.clientfds i).fd
  have slot : ∀ i ∈ List.range' 1 (OPEN_MAX - 1), ClientSlot i := by
    intro i member
    have bounds := List.mem_range'_1.mp member
    exact ⟨bounds.1, by simp only [OPEN_MAX] at bounds ⊢; omega⟩
  -- the descriptors of the table are that many clients, no two of them equal
  have distinct : fds.Nodup := by
    refine List.Nodup.map_on ?_ List.nodup_range'
    intro i first j second equal
    exact table.apart i j (slot i first) (slot j second) (taken i (slot i first)) equal
  have clients : fds ⊆ server.clients := by
    intro fd member
    obtain ⟨i, index, rfl⟩ := List.mem_map.mp member
    cases table.slots i (slot i index) with
    | inl free =>
      have := taken i (slot i index)
      rw [free] at this
      exact absurd this (by decide)
    | inr client => exact client.1
  have count := (distinct.subperm clients).length_le
  have size : fds.length = OPEN_MAX - 1 := by
    rw [List.length_map, List.length_range']
  omega

/-- One more client. -/
abbrev join (server : Server) (connfd : Int) : Server := { server with clients := connfd :: server.clients }

theorem Table.turnAway (table : server.Table listenfd) (accepts : server.Accepts listenfd connfd)
    (full : server.freeSlot = none) : (server.join connfd).exit.Table listenfd where
  listening := table.listening
  inside := table.inside
  beyond := table.beyond
  slots := fun i slot => (table.slots i slot).imp_right fun client =>
    ⟨List.mem_cons_of_mem _ client.1, client.2⟩
  apart := table.apart
  nonneg := List.forall_mem_cons.mpr ⟨accepts.1, table.nonneg⟩
  distinct := List.nodup_cons.mpr ⟨accepts.2.2, table.distinct⟩
  seated := fun few => by
    have many := table.full full
    cases few with
    | inl running => contradiction
    | inr few =>
      have : server.clients.length + 1 < OPEN_MAX := few
      omega

theorem Table.storeClient (table : server.Table listenfd) (running : server.running = true)
    (accepts : server.Accepts listenfd connfd) (free : server.freeSlot = some i) :
    ((server.join connfd).storeClient i connfd).Table listenfd := by
  obtain ⟨slot, vacant, _⟩ := freeSlot_eq_some_iff.mp free
  have other : ∀ j, j ≠ i → ((server.join connfd).storeClient i connfd).clientfds j = server.clientfds j :=
    fun j different => if_neg different
  have here : ((server.join connfd).storeClient i connfd).clientfds i =
      { server.clientfds i with fd := connfd, events := POLLIN } := if_pos rfl
  -- the new descriptor is in no slot
  have fresh : ∀ j, ClientSlot j → (server.clientfds j).fd ≠ connfd := by
    intro j within equal
    cases table.slots j within with
    | inl none =>
      have := accepts.1
      omega
    | inr client =>
      rw [equal] at client
      exact accepts.2.2 client.1
  have higher : server.maxi ≤ ((server.join connfd).storeClient i connfd).maxi ∧
      i ≤ ((server.join connfd).storeClient i connfd).maxi ∧
      ((server.join connfd).storeClient i connfd).maxi < OPEN_MAX := by
    have inside := table.inside
    have last := slot.2
    simp only [Server.storeClient]
    split <;> omega
  exact {
    listening := by
      rw [other 0 (Nat.ne_of_lt slot.1)]
      exact table.listening
    inside := higher.2.2
    beyond := fun j first last => by
      rw [other j (by omega)]
      exact table.beyond j (by omega) last
    slots := fun j within => by
      by_cases same : j = i
      · rw [same, here]
        exact .inr ⟨List.mem_cons_self, rfl⟩
      · rw [other j same]
        exact (table.slots j within).imp_right fun client => ⟨List.mem_cons_of_mem _ client.1, client.2⟩
    apart := fun j k first second nonneg equal => by
      by_cases firstHere : j = i
      · by_cases secondHere : k = i
        · rw [firstHere, secondHere]
        · rw [firstHere, here, other k secondHere] at equal
          exact absurd equal.symm (fresh k second)
      · by_cases secondHere : k = i
        · rw [secondHere, here, other j firstHere] at equal
          exact absurd equal (fresh j first)
        · rw [other j firstHere] at nonneg equal
          rw [other k secondHere] at equal
          exact table.apart j k first second nonneg equal
    nonneg := List.forall_mem_cons.mpr ⟨accepts.1, table.nonneg⟩
    distinct := List.nodup_cons.mpr ⟨accepts.2.2, table.distinct⟩
    seated := fun _ => by
      refine List.forall_mem_cons.mpr ⟨⟨i, slot, by rw [here]⟩, ?_⟩
      intro fd member
      obtain ⟨j, within, found⟩ := table.seated (.inl running) fd member
      refine ⟨j, within, ?_⟩
      rw [other j]
      · exact found
      · -- the slot was free, and a client has a descriptor
        intro same
        have := table.nonneg fd member
        rw [← found, same] at this
        omega }

/-! ## A round -/

/-- The server when `poll` has returned. -/
abbrev polling (server : Server) (revents : Nat → UInt16) : Server :=
  { server with reads := [] }.polled revents

/-- What a round can come to. -/
inductive RoundEnds (listenfd : Int) (server : Server) (round : Round) : Server → Prop where
  | pollError (poll : round.poll = none) : RoundEnds listenfd server round { server with reads := [] }.exit
  | interrupted (revents) (poll : round.poll = some revents)
      (readable : ((server.polling revents).clientfds 0).readable = true)
      (accepted : round.accepted = .interrupted) : RoundEnds listenfd server round (server.polling revents)
  | acceptError (revents) (poll : round.poll = some revents)
      (readable : ((server.polling revents).clientfds 0).readable = true)
      (accepted : round.accepted = .failed) : RoundEnds listenfd server round (server.polling revents).exit
  | tooMany (revents connfd) (poll : round.poll = some revents)
      (readable : ((server.polling revents).clientfds 0).readable = true)
      (accepted : round.accepted = .connected connfd) (accepts : (server.polling revents).Accepts listenfd connfd)
      (full : (server.polling revents).freeSlot = none) :
      RoundEnds listenfd server round ((server.polling revents).join connfd).exit
  | stored (revents connfd i) (poll : round.poll = some revents)
      (readable : ((server.polling revents).clientfds 0).readable = true)
      (accepted : round.accepted = .connected connfd) (accepts : (server.polling revents).Accepts listenfd connfd)
      (free : (server.polling revents).freeSlot = some i) (few : (server.polling revents).nready ≤ 1) :
      RoundEnds listenfd server round (((server.polling revents).join connfd).storeClient i connfd)
  | storedAndHandled (revents connfd i) (poll : round.poll = some revents)
      (readable : ((server.polling revents).clientfds 0).readable = true)
      (accepted : round.accepted = .connected connfd) (accepts : (server.polling revents).Accepts listenfd connfd)
      (free : (server.polling revents).freeSlot = some i) (more : 2 ≤ (server.polling revents).nready) :
      RoundEnds listenfd server round
        ((((server.polling revents).join connfd).storeClient i connfd).handleConnection
          (((server.polling revents).join connfd).storeClient i connfd).maxi round)
  | handled (revents) (poll : round.poll = some revents)
      (notReadable : ((server.polling revents).clientfds 0).readable = false) :
      RoundEnds listenfd server round
        ((server.polling revents).handleConnection (server.polling revents).maxi round)

theorem doPoll_ends {server' : Server} (taken : doPoll listenfd server round = some server') :
    server.running = true ∧ RoundEnds listenfd server round server' := by
  simp only [doPoll] at taken
  split at taken
  · contradiction
  rename_i running
  refine ⟨Bool.not_eq_false _ ▸ running, ?_⟩
  -- one branch of `do_poll` after the other, in its order
  split at taken
  · rename_i poll
    cases taken
    exact .pollError poll
  rename_i revents poll
  split at taken
  · rename_i readable
    split at taken
    · rename_i accepted
      cases taken
      exact .interrupted revents poll readable accepted
    · rename_i accepted
      cases taken
      exact .acceptError revents poll readable accepted
    · rename_i connfd accepted
      split at taken
      · rename_i accepts
        split at taken
        · rename_i full
          cases taken
          exact .tooMany revents connfd poll readable accepted accepts full
        · rename_i i free
          split at taken
          · rename_i few
            have few : (server.polling revents).nready - 1 ≤ 0 := few
            cases taken
            exact .stored revents connfd i poll readable accepted accepts free (by omega)
          · rename_i more
            have more : ¬ (server.polling revents).nready - 1 ≤ 0 := more
            cases taken
            exact .storedAndHandled revents connfd i poll readable accepted accepts free (by omega)
      · contradiction
  · rename_i notReadable
    cases taken
    exact .handled revents poll (Bool.not_eq_true _ ▸ notReadable)

theorem Table.doPoll (table : server.Table listenfd) {server' : Server}
    (taken : Server.doPoll listenfd server round = some server') : server'.Table listenfd := by
  obtain ⟨running, ends⟩ := doPoll_ends taken
  have quiet : Server.Table listenfd { server with reads := [] } :=
    table.of_same (fun _ => rfl) (fun _ => rfl) rfl rfl rfl
  cases ends with
  | pollError => exact quiet.exit running
  | interrupted revents => exact quiet.polled revents
  | acceptError revents => exact (quiet.polled revents).exit running
  | tooMany revents connfd _ _ _ accepts full => exact (quiet.polled revents).turnAway accepts full
  | stored revents connfd i _ _ _ accepts free => exact (quiet.polled revents).storeClient running accepts free
  | storedAndHandled revents connfd i _ _ _ accepts free =>
    have stored := (quiet.polled revents).storeClient running accepts free
    exact stored.handleConnection running stored.inside round
  | handled revents =>
    have polled := quiet.polled revents
    exact polled.handleConnection running polled.inside round

/-! ## Every state -/

/-- The entries of the next `poll(clientfds, maxi + 1)`. -/
def nextPoll (server : Server) : List PollFd := server.polledIndices.map server.clientfds

/-- Every client has a slot, one only, which the next `poll` covers. -/
structure Covered (listenfd : Int) (server : Server) : Prop where
  listening : (server.clientfds 0).fd = listenfd ∧ (server.clientfds 0).events = POLLIN
  inside : server.maxi < OPEN_MAX
  seated : ∀ fd ∈ server.clients, ∃ i, 1 ≤ i ∧ i ≤ server.maxi ∧
    (server.clientfds i).fd = fd ∧ (server.clientfds i).events = POLLIN ∧
    ∀ j, 1 ≤ j → j < OPEN_MAX → (server.clientfds j).fd = fd → j = i
  others : ∀ i, 1 ≤ i → i < OPEN_MAX → (server.clientfds i).fd ∉ server.clients → (server.clientfds i).fd = -1
  watched : ∀ fd ∈ server.clients, ∃ entry ∈ server.nextPoll, entry.fd = fd ∧ entry.events = POLLIN

theorem Table.covered (table : server.Table listenfd) (few : server.clients.length < OPEN_MAX) :
    server.Covered listenfd := by
  have seated : ∀ fd ∈ server.clients, ∃ i, 1 ≤ i ∧ i ≤ server.maxi ∧
      (server.clientfds i).fd = fd ∧ (server.clientfds i).events = POLLIN ∧
      ∀ j, 1 ≤ j → j < OPEN_MAX → (server.clientfds j).fd = fd → j = i := by
    intro fd member
    have nonneg := table.nonneg fd member
    obtain ⟨i, slot, found⟩ := table.seated (.inr few) fd member
    -- past `maxi` every slot is free
    have low : i ≤ server.maxi := by
      by_contra high
      have free := table.beyond i (Nat.not_le.mp high) slot.2
      omega
    have client : (server.clientfds i).events = POLLIN := by
      cases table.slots i slot with
      | inl free => omega
      | inr client => exact client.2
    refine ⟨i, slot.1, low, found, client, ?_⟩
    intro j first last same
    exact table.apart j i ⟨first, last⟩ slot (by rw [same]; exact nonneg) (by rw [same, found])
  exact {
    listening := table.listening
    inside := table.inside
    seated := seated
    others := fun i first last stranger =>
      (table.slots i ⟨first, last⟩).resolve_right fun client => stranger client.1
    watched := fun fd member => by
      obtain ⟨i, _, low, found, events, _⟩ := seated fd member
      refine ⟨server.clientfds i, ?_, found, events⟩
      exact List.mem_map_of_mem (List.mem_range.mpr (Nat.lt_succ_of_le low)) }

variable {memory : Nat → PollFd} {past : List (Server × Round)} {last : Server}

theorem table_before (execution : Execution (doPoll listenfd) (init listenfd memory) past last) :
    ∀ state ∈ reached past last, state.Table listenfd := by
  refine execution.invariant_reached (Table listenfd) (fun _ _ => True) (table_init listenfd memory) ?_ ?_
  · exact fun server round server' table _ taken => table.doPoll taken
  · exact fun _ _ => trivial

/-- With fewer than `OPEN_MAX` clients at any time, the table covers every client in every state. -/
theorem clients_covered (execution : Execution (doPoll listenfd) (init listenfd memory) past last)
    (few : ∀ state ∈ reached past last, state.clients.length < OPEN_MAX) :
    ∀ state ∈ reached past last, state.Covered listenfd :=
  fun state member => (table_before execution state member).covered (few state member)

/-- One client, accepted in the first round. -/
def firstRound : Round where
  poll := some fun _ => POLLIN
  accepted := .connected 5
  reads _ := .failed
  overrun _ _ := []

/-- An array with nothing in it. -/
def emptyMemory : Nat → PollFd := fun _ => ⟨0, 0, 0⟩

theorem clients_covered_one :
    ∃ past last, Execution (doPoll 3) (init 3 emptyMemory) past last ∧ last.clients = [5] ∧
      ∀ state ∈ reached past last, state.Covered 3 := by
  have taken : ∃ next, doPoll 3 (init 3 emptyMemory) firstRound = some next ∧ next.clients = [5] := by
    refine ⟨_, rfl, ?_⟩
    decide
  obtain ⟨next, taken, clients⟩ := taken
  have execution := Execution.start.followedBy firstRound taken
  refine ⟨_, next, execution, clients, clients_covered execution ?_⟩
  intro state member
  -- the run has two states
  have members : state = init 3 emptyMemory ∨ state = next := by simpa [reached] using member
  cases members with
  | inl first =>
    rw [first]
    decide
  | inr later =>
    rw [later, clients]
    decide

end Server

end KernelLearning.PollServer
