import KernelLearning.PollServer.Exchange

/-!
# Every client gets its input back

Whatever the server does for the other clients in the same pass, the bytes of a client go through
its own connection once, in order.
-/

namespace KernelLearning.PollServer

open Bytes Interaction

namespace Server

variable {listenfd fd : Int} {server server' : Server} {round : Round} {num : Nat}

/-! ## One round -/

/-- A turn closes no client but one whose `read` returned 0. -/
theorem handleTurn_clients {state : Server × List UInt8} {i : Nat} (member : fd ∈ state.1.clients) :
    fd ∈ (handleTurn round state i).1.clients ∨
      state.1.ready i = true ∧ (state.1.clientfds i).fd = fd ∧ ∃ fits, round.reads i = .got [] fits := by
  cases now : state.1.ready i with
  | false =>
    rw [handleTurn_idle now]
    exact .inl member
  | true =>
    obtain ⟨taken, readable⟩ := Bool.and_eq_true_iff.mp now
    simp only [decide_eq_true_eq] at taken
    simp only [handleTurn, if_neg (Int.not_lt.mpr taken), readable, if_true]
    split
    · rename_i nothing
      by_cases same : (state.1.clientfds i).fd = fd
      · refine .inr ⟨trivial, same, ?_⟩
        cases result : round.reads i with
        | failed => simp [readInto, result] at nothing
        | got bytes fits =>
          have none : bytes = [] := by simpa [readInto, result] using nothing
          subst none
          exact ⟨fits, rfl⟩
      · exact .inl ((List.mem_erase_of_ne fun equal => same equal.symm).mpr member)
    · exact .inl member

theorem loop_clients {indices : List Nat} (distinct : indices.Nodup) (state : Server × List UInt8)
    (member : fd ∈ state.1.clients) :
    fd ∈ (indices.foldl (handleTurn round) state).1.clients ∨
      ∃ i ∈ indices.filter state.1.ready, (state.1.clientfds i).fd = fd ∧ ∃ fits, round.reads i = .got [] fits := by
  induction indices generalizing state with
  | nil => exact .inl member
  | cons index indices inductionHypothesis =>
    obtain ⟨fresh, distinct⟩ := List.nodup_cons.mp distinct
    rw [List.foldl_cons]
    have turn : fd ∈ (handleTurn round state index).1.clients ∨ state.1.ready index = true ∧
        (state.1.clientfds index).fd = fd ∧ ∃ fits, round.reads index = .got [] fits := handleTurn_clients member
    rcases turn with stays | ⟨now, here, ended⟩
    · rcases inductionHypothesis distinct _ stays with stays | ⟨i, later, there, ended⟩
      · exact .inl stays
      · obtain ⟨inside, readyThen⟩ := List.mem_filter.mp later
        have same : (handleTurn round state index).1.clientfds i = state.1.clientfds i := by
          refine handleTurn_other fun equal => ?_
          rw [equal] at inside
          exact fresh inside
        rw [ready_congr same] at readyThen
        rw [same] at there
        exact .inr ⟨i, List.mem_filter.mpr ⟨List.mem_cons_of_mem _ inside, readyThen⟩, there, ended⟩
    · exact .inr ⟨index, List.mem_filter.mpr ⟨List.mem_cons_self, now⟩, here, ended⟩

theorem handleConnection_clients (member : fd ∈ server.clients) :
    fd ∈ (server.handleConnection num round).clients ∨
      ∃ i ∈ server.readySlots num, (server.clientfds i).fd = fd ∧ ∃ fits, round.reads i = .got [] fits :=
  loop_clients List.nodup_range' (server, List.replicate MAXLINE 0) member

/-- A round that does not end the server is a pass over the clients, with the one that has joined;
or over none of them. -/
theorem doPoll_pass (table : server.Table listenfd) (taken : doPoll listenfd server round = some server')
    (running : server'.running = true) :
    ∃ (base : Server) (num : Nat), base.Table listenfd ∧ num < OPEN_MAX ∧ base.reads = [] ∧ base.sent = server.sent ∧
      base.clients = (server.joined round).toList ++ server.clients ∧ server' = base.handleConnection num round := by
  obtain ⟨runs, ends⟩ := doPoll_ends taken
  have quiet : Server.Table listenfd { server with reads := [] } :=
    table.of_same (fun _ => rfl) (fun _ => rfl) rfl rfl rfl
  have polling : ∀ revents, (server.polling revents).Table listenfd := quiet.polled
  cases ends with
  | pollError | acceptError | tooMany => cases running
  | interrupted revents poll readable accepted =>
    have nobody : server.joined round = none := by simp [joined, poll, accepted]
    refine ⟨server.polling revents, 0, polling revents, by decide, rfl, rfl, ?_, rfl⟩
    rw [nobody]
    rfl
  | stored revents connfd i poll readable accepted accepts free few =>
    have now : server.joined round = some connfd := by
      simp only [joined, poll, accepted]
      exact if_pos readable
    refine ⟨((server.polling revents).join connfd).storeClient i connfd, 0,
      (polling revents).storeClient runs accepts free, by decide, rfl, rfl, ?_, rfl⟩
    rw [now]
    rfl
  | storedAndHandled revents connfd i poll readable accepted accepts free more =>
    have now : server.joined round = some connfd := by
      simp only [joined, poll, accepted]
      exact if_pos readable
    have stored := (polling revents).storeClient runs accepts free
    refine ⟨((server.polling revents).join connfd).storeClient i connfd, _, stored, stored.inside, rfl, rfl, ?_, rfl⟩
    rw [now]
    rfl
  | handled revents poll notReadable =>
    have nobody : server.joined round = none := by
      simp only [joined, poll]
      split
      · rename_i revents' connfd same accepted
        cases same
        exact if_neg (Bool.eq_false_iff.mp notReadable)
      · rfl
    refine ⟨server.polling revents, _, polling revents, (polling revents).inside, rfl, rfl, ?_, rfl⟩
    rw [nobody]
    rfl

/-- The ready slots have different descriptors. -/
theorem Table.distinct_ready (table : server.Table listenfd) (inside : num < OPEN_MAX) :
    ((server.readySlots num).map fun i => (server.clientfds i).fd).Nodup := by
  have slot : ∀ i ∈ server.readySlots num, ClientSlot i ∧ 0 ≤ (server.clientfds i).fd := by
    intro i member
    obtain ⟨within, now⟩ := List.mem_filter.mp member
    have bounds := List.mem_range'_1.mp within
    have taken := (Bool.and_eq_true_iff.mp now).1
    exact ⟨⟨bounds.1, by omega⟩, by simpa only [decide_eq_true_eq] using taken⟩
  refine List.Nodup.map_on ?_ (List.Nodup.filter _ List.nodup_range')
  intro i first j second equal
  exact table.apart i j (slot i first).1 (slot j second).1 (slot i first).2 equal

end Server

/-! ## One connection -/

theorem possible_cases {stream : List UInt8} {ended : Bool} {result : ReadResult}
    (possible : result.possible stream ended = true) :
    ∃ bytes fits, result = .got bytes fits ∧ bytes <+: stream ∧ (bytes = [] → stream = [] ∧ ended = true) := by
  cases result with
  | failed => cases possible
  | got bytes fits =>
    refine ⟨bytes, fits, rfl, ?_⟩
    cases bytes with
    | nil =>
      simp only [ReadResult.possible, List.isEmpty_nil, if_true, Bool.and_eq_true, List.isEmpty_iff] at possible
      exact ⟨List.nil_prefix, fun _ => possible⟩
    | cons byte bytes =>
      simp only [ReadResult.possible, List.isEmpty_cons, Bool.false_eq_true, if_false, List.isPrefixOf_iff_prefix]
        at possible
      exact ⟨possible, fun impossible => by cases impossible⟩

theorem append_drop_of_isPrefix {bytes stream : List UInt8} (front : bytes <+: stream) :
    bytes ++ stream.drop bytes.length = stream := by
  obtain ⟨rest, rfl⟩ := front
  rw [List.drop_left]

namespace Peer

variable {listenfd fd : Int} {server : Server} {round : Round} {num : Nat} {peer peer' : Peer}

theorem taken_eq (fresh : server.reads = []) :
    taken (server.handleConnection num round).reads round fd =
      (((server.readySlots num).find? fun i => (server.clientfds i).fd = fd).map fun i =>
        (round.reads i).answer []).getD [] := by
  rw [Server.handleConnection_reads, fresh, List.nil_append, taken, List.find?_map, Option.map_map]
  rfl

theorem addressedTo_sent (table : server.Table listenfd) (inside : num < OPEN_MAX) :
    addressedTo fd ((server.handleConnection num round).sent.drop server.sent.length) =
      (((server.readySlots num).find? fun i => (server.clientfds i).fd = fd).map (Server.answer round)).getD [] := by
  rw [Server.handleConnection_sent, List.drop_left]
  exact addressedTo_flatMap fd (fun i => (server.clientfds i).fd) (Server.answer round) (table.distinct_ready inside)

/-- A pass moves a part of what the client has sent, back to the client. -/
theorem served_pass (table : server.Table listenfd) (inside : num < OPEN_MAX) (fresh : server.reads = [])
    (open_ : peer.link = .accepted fd) (member : fd ∈ server.clients)
    (consistent : peer.consistent (server.handleConnection num round).reads round = true) :
    ∃ bytes, bytes <+: peer.toServer ∧
      peer.served (server.handleConnection num round)
          ((server.handleConnection num round).sent.drop server.sent.length) round = { peer with
        toServer := peer.toServer.drop bytes.length
        toClient := peer.toClient ++ bytes
        link := if fd ∈ (server.handleConnection num round).clients then .accepted fd else .closed } ∧
      (fd ∉ (server.handleConnection num round).clients → peer.toServer = [] ∧ peer.shutdown = true) := by
  have reads : ∀ i ∈ server.readySlots num, (server.clientfds i).fd = fd →
      (round.reads i).possible peer.toServer peer.shutdown = true := by
    intro i member here
    have read : (i, fd) ∈ (server.handleConnection num round).reads := by
      rw [Server.handleConnection_reads, ← here]
      exact List.mem_append_right _ (List.mem_map.mpr ⟨i, member, rfl⟩)
    simp only [Peer.consistent, open_, List.all_eq_true] at consistent
    simpa using consistent (i, fd) read
  have closes : fd ∉ (server.handleConnection num round).clients → peer.toServer = [] ∧ peer.shutdown = true := by
    intro gone
    obtain ⟨i, slot, here, fits, ended⟩ := (Server.handleConnection_clients member).resolve_left gone
    obtain ⟨bytes, _, result, _, last⟩ := possible_cases (reads i slot here)
    rw [ended] at result
    cases result
    exact last rfl
  simp only [served, open_, taken_eq fresh, addressedTo_sent table inside]
  cases found : (server.readySlots num).find? fun i => (server.clientfds i).fd = fd with
  | none => exact ⟨[], List.nil_prefix, rfl, closes⟩
  | some i =>
    have here := List.find?_some found
    rw [decide_eq_true_eq] at here
    obtain ⟨bytes, fits, result, front, _⟩ := possible_cases (reads i (List.mem_of_find?_eq_some found) here)
    refine ⟨bytes, front, ?_, closes⟩
    simp only [Option.map_some, Option.getD_some, Server.answer, result, ReadResult.answer]

/-! ## One client -/

/-- The input of a client is what it has received, what is on its way, and what it has not sent. -/
structure Conserved (input : List UInt8) (peer : Peer) : Prop where
  whole : peer.received ++ peer.toClient ++ peer.toServer ++ peer.stdin = input
  shutdown : peer.shutdown = true → peer.stdin = []
  link : peer.link = .closed → peer.toServer = [] ∧ peer.shutdown = true
  closed : peer.closed = true → peer.link = .closed ∧ peer.toClient = []
  room : peer.sendline.length = MAXLINE

variable {input : List UInt8}

theorem Conserved.readSocket {socket : Option ReadResult} (conserved : Conserved input peer)
    (turned : peer.readSocket socket = some peer') : Conserved input peer' ∧ peer'.link = peer.link := by
  obtain ⟨whole, shutdown, link, closed, room⟩ := conserved
  cases socket with
  | none =>
    cases turned
    exact ⟨⟨whole, shutdown, link, closed, room⟩, rfl⟩
  | some result =>
    simp only [Peer.readSocket] at turned
    split at turned
    · rename_i able
      obtain ⟨bytes, fits, rfl, front, last⟩ := possible_cases able.2
      cases turned
      refine ⟨⟨?_, shutdown, link, ?_, room⟩, rfl⟩
      · rw [← append_drop_of_isPrefix front] at whole
        simpa only [ReadResult.answer, List.append_assoc] using whole
      · intro none
        have empty : bytes = [] := List.isEmpty_iff.mp none
        obtain ⟨nothing, ended⟩ := last empty
        refine ⟨by simpa using ended, ?_⟩
        simp only [nothing, List.drop_nil]
    · cases turned

theorem Conserved.readStdin {stdin : Option ReadResult} (conserved : Conserved input peer)
    (turned : peer.readStdin stdin = some peer') : Conserved input peer' ∧ peer'.link = peer.link := by
  obtain ⟨whole, shutdown, link, closed, room⟩ := conserved
  cases stdin with
  | none =>
    cases turned
    exact ⟨⟨whole, shutdown, link, closed, room⟩, rfl⟩
  | some result =>
    simp only [Peer.readStdin] at turned
    split at turned
    · rename_i able
      obtain ⟨bytes, fits, rfl, front, last⟩ := possible_cases able
      split at turned
      · rename_i nothing
        have empty : bytes = [] := by simpa [readInto] using nothing
        cases turned
        refine ⟨⟨whole, fun _ => (last empty).1, fun here => ⟨(link here).1, rfl⟩, closed, ?_⟩, rfl⟩
        exact (Server.length_readInto _ _).trans room
      · rename_i some
        have sent : writeFrom (overlay peer.sendline 0 bytes) (sizeT bytes.length) (fun _ => []) = bytes :=
          Server.writeFrom_readInto room (.got bytes fits) (fun _ => []) some
        have nonempty : bytes ≠ [] := fun empty => some (by simp [readInto, empty])
        -- so the input has not come to its end, and nothing is closed
        have more : peer.stdin ≠ [] := fun none => nonempty (List.prefix_nil.mp (none ▸ front))
        cases turned
        refine ⟨⟨?_, fun ended => absurd (shutdown ended) more, fun here => absurd (shutdown (link here).2) more,
          closed, (Server.length_readInto _ _).trans room⟩, rfl⟩
        rw [← append_drop_of_isPrefix front] at whole
        simpa only [readInto, sent, Int.toNat_natCast, List.append_assoc] using whole
    · cases turned

theorem Conserved.handleConnection {socket stdin : Option ReadResult} (conserved : Conserved input peer)
    (turned : peer.handleConnection socket stdin = some peer') : Conserved input peer' ∧ peer'.link = peer.link := by
  obtain ⟨between, first, second⟩ := Option.bind_eq_some_iff.mp turned
  obtain ⟨kept, link⟩ := conserved.readSocket first
  obtain ⟨kept', link'⟩ := kept.readStdin second
  exact ⟨kept', link'.trans link⟩

/-- A new state of the connection that is not an end of it. -/
theorem Conserved.setLink (conserved : Conserved input peer) {link : Link} (before : peer.link ≠ .closed)
    (after : link ≠ .closed) : Conserved input { peer with link := link } where
  whole := conserved.whole
  shutdown := conserved.shutdown
  link := fun here => absurd here after
  closed := fun here => absurd (conserved.closed here).1 before
  room := conserved.room

end Peer

/-! ## The system -/

variable {clients : Nat} {listenfd : Int} {system system' : System clients} {input : Fin clients → List UInt8}

/-- The server has the connections of the clients under different descriptors. -/
structure Connected (listenfd : Int) (input : Fin clients → List UInt8) (system : System clients) : Prop where
  table : system.server.Table listenfd
  member : ∀ id fd, (system.peer id).link = .accepted fd → fd ∈ system.server.clients
  conserved : ∀ id, (system.peer id).Conserved (input id)

theorem Connected.setPeer (connected : Connected listenfd input system) {id : Fin clients} {peer : Peer}
    (conserved : peer.Conserved (input id))
    (same : ∀ fd, peer.link = .accepted fd → (system.peer id).link = .accepted fd) :
    Connected listenfd input (system.setPeer id peer) := by
  refine ⟨connected.table, ?_, ?_⟩
  · intro other fd here
    by_cases this_one : other = id
    · subst this_one
      simp only [System.setPeer, Function.update_self] at here
      exact connected.member other fd (same fd here)
    · simp only [System.setPeer, Function.update_of_ne this_one] at here
      exact connected.member other fd here
  · intro other
    by_cases this_one : other = id
    · subst this_one
      simpa only [System.setPeer, Function.update_self] using conserved
    · simpa only [System.setPeer, Function.update_of_ne this_one] using connected.conserved other

/-- The clients before a round, with the connection that `accept` returns in it. -/
theorem accepted_connected {round : Round} {joins : Option (Fin clients)} (connected : Connected listenfd input system)
    (accepted : system.accepted round joins = some system') :
    system'.server = system.server ∧ (∀ id, (system'.peer id).Conserved (input id)) ∧
      ∀ id fd, (system'.peer id).link = .accepted fd →
        fd ∈ (system.server.joined round).toList ++ system.server.clients := by
  simp only [System.accepted] at accepted
  split at accepted
  · cases accepted
    exact ⟨rfl, connected.conserved, fun id fd here => List.mem_append_right _ (connected.member id fd here)⟩
  · rename_i connfd id joined
    split at accepted
    · rename_i waiting
      cases accepted
      have notClosed : (system.peer id).link ≠ .closed := by
        rw [waiting]
        exact fun impossible => by cases impossible
      refine ⟨rfl, ?_, ?_⟩
      · intro other
        by_cases this_one : other = id
        · subst this_one
          simp only [System.setPeer, Function.update_self]
          exact (connected.conserved other).setLink notClosed fun impossible => by cases impossible
        · simpa only [System.setPeer, Function.update_of_ne this_one] using connected.conserved other
      · intro other fd here
        by_cases this_one : other = id
        · subst this_one
          simp only [System.setPeer, Function.update_self, Link.accepted.injEq] at here
          simp [joined, here]
        · simp only [System.setPeer, Function.update_of_ne this_one] at here
          exact List.mem_append_right _ (connected.member other fd here)
    · cases accepted
  · cases accepted

theorem serve_connected {round : Round} (table : system.server.Table listenfd)
    (conserved : ∀ id, (system.peer id).Conserved (input id))
    (member : ∀ id fd, (system.peer id).link = .accepted fd →
      fd ∈ (system.server.joined round).toList ++ system.server.clients)
    (served : system.serve listenfd round = some system') (running : system'.server.running = true) :
    Connected listenfd input system' := by
  obtain ⟨server', taken, result⟩ := Option.bind_eq_some_iff.mp served
  split at result
  · rename_i consistent
    cases result
    refine ⟨table.doPoll taken, ?_, ?_⟩
    · intro id fd here
      simp only [Peer.served] at here
      split at here
      · split at here
        · rename_i stays
          cases here
          exact stays
        · cases here
      · rename_i notAccepted
        exact absurd here (notAccepted fd)
    · intro id
      cases open_ : (system.peer id).link with
      | accepted fd =>
        obtain ⟨base, num, baseTable, inside, fresh, sent, baseClients, rfl⟩ := Server.doPoll_pass table taken running
        have here : fd ∈ base.clients := by
          rw [baseClients]
          exact member id fd open_
        obtain ⟨bytes, front, moved, closes⟩ := Peer.served_pass baseTable inside fresh open_ here (consistent id)
        obtain ⟨whole, shutdown, _, closed, room⟩ := conserved id
        simp only [← sent, moved]
        have notYet : (system.peer id).closed ≠ true := by
          intro already
          rw [(closed already).1] at open_
          cases open_
        refine ⟨?_, shutdown, ?_, fun already => absurd already notYet, room⟩
        · rw [← append_drop_of_isPrefix front] at whole
          simpa only [List.append_assoc] using whole
        · intro ended
          have gone : fd ∉ (base.handleConnection num round).clients := by
            intro stays
            rw [if_pos stays] at ended
            cases ended
          obtain ⟨nothing, shut⟩ := closes gone
          exact ⟨by simp only [nothing, List.drop_nil], shut⟩
      | apart | waiting | closed =>
        simp only [Peer.served, open_]
        exact conserved id
  · cases result

theorem step_connected {event : Event clients}
    (connected : system.server.running = true → Connected listenfd input system)
    (taken : step listenfd system event = some system') (running : system'.server.running = true) :
    Connected listenfd input system' := by
  cases event with
  | connect id =>
    simp only [step] at taken
    split at taken
    · rename_i apart
      cases taken
      have before := connected running
      refine before.setPeer ((before.conserved id).setLink ?_ fun impossible => by cases impossible) ?_
      · rw [apart]
        exact fun impossible => by cases impossible
      · intro fd impossible
        cases impossible
    · cases taken
  | client id socket stdin =>
    simp only [step] at taken
    split at taken
    · cases taken
    · obtain ⟨peer, turned, rfl⟩ := Option.map_eq_some_iff.mp taken
      have before := connected running
      obtain ⟨kept, link⟩ := (before.conserved id).handleConnection turned
      exact before.setPeer kept fun fd here => link ▸ here
  | round round joins =>
    obtain ⟨between, accepted, served⟩ := Option.bind_eq_some_iff.mp taken
    have runs : system.server.running = true := by
      obtain ⟨server', polled, _⟩ := Option.bind_eq_some_iff.mp served
      have same : between.server = system.server := by
        simp only [System.accepted] at accepted
        split at accepted
        · cases accepted
          rfl
        · split at accepted
          · cases accepted
            rfl
          · cases accepted
        · cases accepted
      rw [same] at polled
      exact (Server.doPoll_ends polled).1
    have before := connected runs
    obtain ⟨same, conserved, member⟩ := accepted_connected before accepted
    refine serve_connected ?_ conserved ?_ served running
    · rw [same]
      exact before.table
    · rw [same]
      exact member

theorem init_connected (listenfd : Int) (memory : Nat → PollFd) (input : Fin clients → List UInt8) :
    Connected listenfd input (System.init listenfd memory input) where
  table := Server.table_init listenfd memory
  member := fun _ _ impossible => by cases impossible
  conserved := fun id => {
    whole := rfl
    shutdown := fun impossible => by cases impossible
    link := fun impossible => by cases impossible
    closed := fun impossible => by cases impossible
    room := List.length_replicate }

/-- Whatever the clients and the server do in whatever order, as long as the server runs nothing of
the input of a client is lost, doubled, reordered or sent to another one; and a client that has
read the end of the stream has all of its input back. -/
theorem echoed_back {memory : Nat → PollFd} {past : List (System clients × Event clients)} {last : System clients}
    (execution : Execution (step listenfd) (System.init listenfd memory input) past last)
    (running : last.server.running = true) (id : Fin clients) :
    (last.peer id).received ++ (last.peer id).toClient ++ (last.peer id).toServer ++ (last.peer id).stdin = input id ∧
      ((last.peer id).closed = true → (last.peer id).received = input id) := by
  have connected := execution.always (fun system => system.server.running = true → Connected listenfd input system)
    (fun _ => init_connected listenfd memory input)
    (fun _ _ _ connected taken running => step_connected connected taken running) running
  obtain ⟨whole, shutdown, link, closed, _⟩ := connected.conserved id
  refine ⟨whole, ?_⟩
  intro ended
  obtain ⟨server, nothing⟩ := closed ended
  rw [nothing, (link server).1, shutdown (link server).2] at whole
  simpa using whole

/-- `poll` reports this slot; a connection is accepted as 4, and reads meet the end of the stream. -/
def readySlot (slot : Nat) : Round where
  poll := some fun i => if i = slot then POLLIN else 0
  accepted := .connected 4
  reads _ := .got [] (by decide)
  overrun _ _ := []

/-- The second client has no input, and leaves while the byte of the first one is on its way. -/
def oneLeaves (one two : Fin 2) : List (Event 2) :=
  [.connect one, .connect two, .client one none (some (.got [65] (by decide))), .round (readySlot 0) (some two),
    .client two none (some (.got [] (by decide))), .round (readySlot 1) none,
    .client two (some (.got [] (by decide))) none]

theorem echoed_back_leaves : ∃ past last,
    Execution (step 3) (System.init 3 Server.emptyMemory fun id : Fin 2 => if id = 0 then [65] else []) past last ∧
      (last.peer 0).received ++ (last.peer 0).toClient ++ (last.peer 0).toServer ++ (last.peer 0).stdin = [65] ∧
        (last.peer 1).received = [] := by
  have ended : (perform (step 3) (System.init 3 Server.emptyMemory fun id : Fin 2 => if id = 0 then [65] else [])
      (oneLeaves 0 1)).map (fun last => (last.server.running, (last.peer 1).closed)) = some (true, true) := by
    decide +kernel
  obtain ⟨last, performed, both⟩ := Option.map_eq_some_iff.mp ended
  obtain ⟨past, _, execution⟩ := execution_of_perform performed
  obtain ⟨running, closed⟩ := Prod.mk.inj both
  exact ⟨past, last, execution, (echoed_back execution running 0).1, (echoed_back execution running 1).2 closed⟩

end KernelLearning.PollServer
