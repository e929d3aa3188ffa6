import KernelLearning.SelectServer.Coverage
import KernelLearning.Bytes.Residue

/-!
# What the echo to a client depends on

`recv_client_msg` zeroes its buffer once, reads the messages of all ready clients
into it one over the other, and echoes it as a string each time.
-/

namespace KernelLearning.SelectServer

open Bytes

/-- A turn with other messages. -/
def Turn.withReads (turn : Turn) (reads : Nat → List UInt8) : Turn := { turn with reads := reads }

namespace Server

/-! ## One pass -/

/-- The client at the index is there and ready. -/
def Ready (server : Server) (turn : Turn) (i : Nat) : Prop :=
  0 ≤ server.slot turn.beyond i ∧ server.slot turn.beyond i ∈ server.ctx.allfds

instance (server : Server) (turn : Turn) (i : Nat) : Decidable (server.Ready turn i) :=
  inferInstanceAs (Decidable (_ ∧ _))

/-- Every client that is ready sent a message that leaves room for the terminator. -/
def Messages (server : Server) (turn : Turn) : Prop :=
  ∀ i ∈ server.recvIndices, server.Ready turn i →
    0 < (turn.reads i).length ∧ (turn.reads i).length ≤ MAXLINE - 1

/-- What `recv_client_msg` writes to a descriptor, write by write. -/
def echoed (server : Server) (turn : Turn) (clifd : Int) : List (List UInt8) :=
  (((server.recvClientMsg turn).written.drop server.written.length).filter (·.1 = clifd)).map (·.2)

/-- What is written for the clients at the indices, all of them ready, from the buffer on. -/
def echoes (slot : Nat → Int) (reads : Nat → List UInt8) : List UInt8 → List Nat → List (Int × List UInt8)
  | _, [] => []
  | buf, i :: indices =>
    (slot i, cString (overlay buf 0 (reads i))) :: echoes slot reads (overlay buf 0 (reads i)) indices

theorem echoes_append (slot : Nat → Int) (reads : Nat → List UInt8) (buf : List UInt8) (earlier later : List Nat) :
    echoes slot reads buf (earlier ++ later) = echoes slot reads buf earlier ++
      echoes slot reads (earlier.foldl (fun buf i => overlay buf 0 (reads i)) buf) later := by
  induction earlier generalizing buf with
  | nil => rfl
  | cons i indices inductionHypothesis =>
    rw [List.cons_append, echoes, inductionHypothesis]
    rfl

theorem echoes_elsewhere {slot : Nat → Int} {reads : Nat → List UInt8} {buf : List UInt8} {indices : List Nat}
    {clifd : Int} (elsewhere : ∀ i ∈ indices, slot i ≠ clifd) :
    (echoes slot reads buf indices).filter (·.1 = clifd) = [] := by
  induction indices generalizing buf with
  | nil => rfl
  | cons i indices inductionHypothesis =>
    simp only [List.mem_cons, forall_eq_or_imp] at elsewhere
    rw [echoes, List.filter_cons_of_neg (by simpa using elsewhere.1)]
    exact inductionHypothesis elsewhere.2

theorem recvLoop_written {turn : Turn} (indices : List Nat) (server : Server) (buf : List UInt8)
    (messages : ∀ i ∈ indices, server.Ready turn i →
      0 < (turn.reads i).length ∧ (turn.reads i).length ≤ MAXLINE - 1) :
    (indices.foldl (recvTurn turn) (server, buf)).1.written = server.written ++
      echoes (server.slot turn.beyond) turn.reads buf (indices.filter fun i => server.Ready turn i) := by
  induction indices generalizing server buf with
  | nil => simp [echoes]
  | cons i indices inductionHypothesis =>
    simp only [List.mem_cons, forall_eq_or_imp] at messages
    by_cases ready : server.Ready turn i
    · obtain ⟨nonempty, short⟩ := messages.1 ready
      have whole : (turn.reads i).take MAXLINE = turn.reads i := by
        refine List.take_of_length_le ?_
        simp only [MAXLINE] at short ⊢
        omega
      have taken : recvTurn turn (server, buf) i =
          (server.handleClientMsg (server.slot turn.beyond i) (overlay buf 0 (turn.reads i)),
            overlay buf 0 (turn.reads i)) := by
        simp only [recvTurn, whole]
        rw [if_neg (Int.not_lt.mpr ready.1), if_pos ready.2, if_neg (Nat.not_le.mpr nonempty)]
      -- the message changes neither the table nor the set
      have rest := inductionHypothesis (server.handleClientMsg (server.slot turn.beyond i)
        (overlay buf 0 (turn.reads i))) (overlay buf 0 (turn.reads i)) messages.2
      rw [List.foldl_cons, taken, rest, List.filter_cons_of_pos (by simpa using ready), echoes]
      simp only [handleClientMsg, List.append_assoc]
      rfl
    · have passed : recvTurn turn (server, buf) i = (server, buf) := by
        simp only [recvTurn]
        split
        · rfl
        · rename_i nonneg
          rw [if_neg fun inSet => ready ⟨Int.not_lt.mp nonneg, inSet⟩]
      rw [List.foldl_cons, passed, inductionHypothesis _ _ messages.2,
        List.filter_cons_of_neg (by simpa using ready)]

/-! ## The echo to one client -/

/-- The ready clients before an index. -/
def readyBefore (server : Server) (turn : Turn) (i : Nat) : List Nat :=
  (List.range i).filter fun j => server.Ready turn j

/-- The uses that the buffer has seen when a client is echoed. -/
def usesUpTo (server : Server) (turn : Turn) (i : Nat) : List (Usage Nat UInt8) :=
  (server.readyBefore turn i ++ [i]).map fun j => .read j (turn.reads j)

section

variable {server : Server} {turn : Turn} {i : Nat}

theorem recvIndices_split (member : i ∈ server.recvIndices) :
    ∃ later, server.recvIndices = List.range i ++ i :: later ∧ ∀ j ∈ later, i < j := by
  have bound : i < server.ctx.cliCnt + 1 := List.mem_range.mp member
  refine ⟨List.range' (i + 1) (server.ctx.cliCnt - i), ?_, ?_⟩
  · have count : server.ctx.cliCnt + 1 = i + (server.ctx.cliCnt - i + 1) := by omega
    rw [recvIndices, count, List.range_add, List.range'_eq_map_range, List.range_succ_eq_map]
    simp [Function.comp_def, Nat.add_comm, Nat.add_left_comm]
  · intro j member
    have := List.mem_range'_1.mp member
    omega

theorem echoed_eq (member : i ∈ server.recvIndices) (ready : server.Ready turn i)
    (alone : ∀ j ∈ server.recvIndices, server.slot turn.beyond j = server.slot turn.beyond i → j = i)
    (messages : server.Messages turn) :
    server.echoed turn (server.slot turn.beyond i) =
      [cString (filled 0 (MAXLINE - 1) (server.usesUpTo turn i))] := by
  obtain ⟨later, split, after⟩ := recvIndices_split member
  have written := recvLoop_written server.recvIndices server (List.replicate MAXLINE 0) messages
  have elsewhere : ∀ j, j ∈ server.recvIndices → j ≠ i → server.slot turn.beyond j ≠ server.slot turn.beyond i :=
    fun j inside different same => different (alone j inside same)
  have before : ∀ j ∈ (List.range i).filter (fun j => server.Ready turn j),
      server.slot turn.beyond j ≠ server.slot turn.beyond i := by
    intro j inside
    have below := (List.mem_filter.mp inside).1
    refine elsewhere j ?_ (Nat.ne_of_lt (List.mem_range.mp below))
    rw [split]
    exact List.mem_append_left _ below
  have behind : ∀ j ∈ later.filter (fun j => server.Ready turn j),
      server.slot turn.beyond j ≠ server.slot turn.beyond i := by
    intro j inside
    have beyond := (List.mem_filter.mp inside).1
    refine elsewhere j ?_ (Nat.ne_of_gt (after j beyond))
    rw [split]
    exact List.mem_append_right _ (List.mem_cons_of_mem _ beyond)
  rw [echoed, recvClientMsg, written, List.drop_left, split, List.filter_append,
    List.filter_cons_of_pos (by simpa using ready), echoes_append, echoes, List.filter_append,
    echoes_elsewhere before, List.nil_append, List.filter_cons_of_pos (by simp), echoes_elsewhere behind]
  simp only [List.map_cons, List.map_nil, usesUpTo, filled, List.map_append, List.foldl_append, List.foldl_map,
    readyBefore]
  rfl

end

/-! ## Two passes -/

/-- What a client cannot tell from a pass is one with other messages of the others. -/
theorem reads_of_alike {client : Nat} {indices : List Nat} (nodup : indices.Nodup) {reads : Nat → List UInt8}
    {uses : List (Usage Nat UInt8)}
    (alike : List.Forall₂ (Usage.Alike client) (indices.map fun j => .read j (reads j)) uses) :
    ∃ reads' : Nat → List UInt8, uses = indices.map (fun j => .read j (reads' j)) ∧
      ∀ j, j ∉ indices ∨ j = client → reads' j = reads j := by
  induction indices generalizing uses with
  | nil => exact ⟨reads, List.forall₂_nil_left_iff.mp alike, fun _ _ => rfl⟩
  | cons first indices inductionHypothesis =>
    obtain ⟨notMember, nodup⟩ := List.nodup_cons.mp nodup
    rw [List.map_cons, List.forall₂_cons_left_iff] at alike
    obtain ⟨use, rest, head, tail, rfl⟩ := alike
    obtain ⟨reads', rest_eq, kept⟩ := inductionHypothesis nodup tail
    cases head with
    | same =>
      refine ⟨reads', ?_, ?_⟩
      · rw [rest_eq, List.map_cons, kept first (.inl notMember)]
      · intro j outside
        refine kept j ?_
        cases outside with
        | inl outside => exact .inl fun inside => outside (List.mem_cons_of_mem _ inside)
        | inr own => exact .inr own
    | foreign different _ message =>
      -- only the message of this index is exchanged
      refine ⟨Function.update reads' first message, ?_, ?_⟩
      · rw [rest_eq, List.map_cons, Function.update_self]
        congr 1
        refine List.map_congr_left ?_
        intro j inside
        have elsewhere : j ≠ first := by
          rintro rfl
          exact notMember inside
        rw [Function.update_of_ne elsewhere]
      · intro j outside
        have elsewhere : j ≠ first := by
          rintro rfl
          cases outside with
          | inl outside => exact outside List.mem_cons_self
          | inr own => exact different own
        rw [Function.update_of_ne elsewhere]
        refine kept j ?_
        cases outside with
        | inl outside => exact .inl fun inside => outside (List.mem_cons_of_mem _ inside)
        | inr own => exact .inr own

theorem alike_of_reads {client : Nat} (indices : List Nat) {reads reads' : Nat → List UInt8}
    (own : reads' client = reads client) :
    List.Forall₂ (Usage.Alike client) (indices.map fun j => Usage.read j (reads j))
      (indices.map fun j => Usage.read j (reads' j)) := by
  rw [List.forall₂_map_left_iff, List.forall₂_map_right_iff]
  refine List.forall₂_same.mpr ?_
  intro j _
  by_cases same : j = client
  · rw [same, own]
    exact .same _
  · exact .foreign same _ _

/-- The echo to the client at an index is the same in every pass that differs from this one only in
what the other clients sent. -/
def EchoIsolated (server : Server) (turn : Turn) (i : Nat) : Prop :=
  ∀ reads, reads i = turn.reads i → server.Messages (turn.withReads reads) →
    server.echoed (turn.withReads reads) (server.slot turn.beyond i) =
      server.echoed turn (server.slot turn.beyond i)

section

variable {server : Server} {turn : Turn} {i : Nat}

theorem usesUpTo_fits (member : i ∈ server.recvIndices) (ready : server.Ready turn i)
    (messages : server.Messages turn) : ∀ use ∈ server.usesUpTo turn i, use.Fits (MAXLINE - 1) := by
  have bound := List.mem_range.mp member
  intro use inside
  obtain ⟨j, last, rfl⟩ := List.mem_map.mp inside
  cases List.mem_append.mp last with
  | inl before =>
    obtain ⟨below, ready⟩ := List.mem_filter.mp before
    have below := List.mem_range.mp below
    exact messages j (List.mem_range.mpr (by omega)) (of_decide_eq_true ready)
  | inr last =>
    obtain rfl := List.mem_singleton.mp last
    exact messages j member ready

theorem indices_nodup (server : Server) (turn : Turn) (i : Nat) : (server.readyBefore turn i ++ [i]).Nodup := by
  refine List.nodup_append.mpr ⟨List.nodup_range.filter _, List.pairwise_singleton _ i, ?_⟩
  rintro j before _ last rfl
  obtain rfl := List.mem_singleton.mp last
  exact absurd (List.mem_range.mp (List.mem_filter.mp before).1) (Nat.lt_irrefl _)

theorem cString_eq_iff (buf buf' : List UInt8) : cString buf = cString buf' ↔ text 0 buf = text 0 buf' :=
  List.append_left_inj _

theorem echoed_withReads (member : i ∈ server.recvIndices) (ready : server.Ready turn i)
    (alone : ∀ j ∈ server.recvIndices, server.slot turn.beyond j = server.slot turn.beyond i → j = i)
    {reads : Nat → List UInt8} (messages : server.Messages (turn.withReads reads)) :
    server.echoed (turn.withReads reads) (server.slot turn.beyond i) =
      [cString (filled 0 (MAXLINE - 1) (server.usesUpTo (turn.withReads reads) i))] :=
  @echoed_eq server (turn.withReads reads) i member ready alone messages

/-- The passes with other messages give the buffers that are possible for the client. -/
theorem isolated_iff_possible (member : i ∈ server.recvIndices) (ready : server.Ready turn i)
    (alone : ∀ j ∈ server.recvIndices, server.slot turn.beyond j = server.slot turn.beyond i → j = i)
    (messages : server.Messages turn) :
    server.EchoIsolated turn i ↔
      ∀ buf, Possible i 0 (MAXLINE - 1) (server.usesUpTo turn i) buf →
        text 0 buf = text 0 (filled 0 (MAXLINE - 1) (server.usesUpTo turn i)) := by
  have echo := echoed_eq member ready alone messages
  constructor
  · rintro isolated buf ⟨uses, alike, fits, rfl⟩
    obtain ⟨reads, uses_eq, kept⟩ := reads_of_alike (indices_nodup server turn i) alike
    have messages' : server.Messages (turn.withReads reads) := by
      intro j inside readyJ
      by_cases upTo : j ∈ server.readyBefore turn i ++ [i]
      · refine fits (.read j (reads j)) ?_
        rw [uses_eq]
        exact List.mem_map_of_mem upTo
      · change 0 < (reads j).length ∧ (reads j).length ≤ MAXLINE - 1
        rw [kept j (.inl upTo)]
        exact messages j inside readyJ
    have same := isolated reads (kept i (.inr rfl)) messages'
    have echo' := echoed_withReads member ready alone messages'
    rw [echo, echo'] at same
    rw [uses_eq]
    exact (cString_eq_iff _ _).mp (List.singleton_inj.mp same)
  · intro same reads own messages'
    have echo' := echoed_withReads member ready alone messages'
    rw [echo, echo', List.singleton_inj, cString_eq_iff]
    exact same _ ⟨_, alike_of_reads _ own,
      @usesUpTo_fits server (turn.withReads reads) i member ready messages', rfl⟩

/-- The client knows what it is echoed if the buffer is still zero, or its own message ends the
text. -/
theorem knows_iff (messages : server.Messages turn) (member : i ∈ server.recvIndices) (ready : server.Ready turn i) :
    KnowsText i 0 (MAXLINE - 1) (server.usesUpTo turn i) ↔
      (∀ j < i, ¬ server.Ready turn j) ∨ 0 ∈ turn.reads i ∨ (turn.reads i).length = MAXLINE - 1 := by
  obtain ⟨nonempty, short⟩ := messages i member ready
  have learned : known i 0 (MAXLINE - 1) (server.usesUpTo turn i) =
      turn.reads i ++ (known i 0 (MAXLINE - 1)
        ((server.readyBefore turn i).map fun j => Usage.read j (turn.reads j))).drop (turn.reads i).length := by
    simp only [usesUpTo, known, List.map_append, List.foldl_append, List.map_cons, List.map_nil, List.foldl_cons,
      List.foldl_nil, Usage.learn, if_true]
  rcases List.eq_nil_or_concat (server.readyBefore turn i) with first | ⟨earlier, j, split⟩
  · have nobody : ∀ j < i, ¬ server.Ready turn j := by
      intro j below readyJ
      have inside : j ∈ server.readyBefore turn i :=
        List.mem_filter.mpr ⟨List.mem_range.mpr below, decide_eq_true readyJ⟩
      rw [first] at inside
      cases inside
    refine iff_of_true (.inr ?_) (.inl nobody)
    rw [learned, first]
    simp only [List.map_nil, known, List.foldl_nil, List.length_append, List.length_drop, List.length_replicate]
    omega
  · -- somebody's message came right before
    rw [List.concat_eq_append] at split
    have inside : j ∈ server.readyBefore turn i := by
      rw [split]
      exact List.mem_append_right _ (List.mem_singleton_self j)
    obtain ⟨below, readyJ⟩ := List.mem_filter.mp inside
    have below := List.mem_range.mp below
    have nothing : known i 0 (MAXLINE - 1)
        ((server.readyBefore turn i).map fun j => Usage.read j (turn.reads j)) = [] := by
      rw [split, List.map_append, known, List.foldl_append]
      exact if_neg (Nat.ne_of_lt below)
    rw [KnowsText, learned, nothing, List.drop_nil, List.append_nil]
    constructor
    · exact .inr
    · intro either
      cases either with
      | inl nobody => exact absurd (of_decide_eq_true readyJ) (nobody j below)
      | inr own => exact own

/-- The echo to a client does not depend on the others exactly if no ready client comes before it,
or its message has a zero byte, or its message fills the buffer up to the last byte. -/
theorem echo_isolated_iff (member : i ∈ server.recvIndices) (ready : server.Ready turn i)
    (alone : ∀ j ∈ server.recvIndices, server.slot turn.beyond j = server.slot turn.beyond i → j = i)
    (messages : server.Messages turn) :
    server.EchoIsolated turn i ↔
      (∀ j < i, ¬ server.Ready turn j) ∨ 0 ∈ turn.reads i ∨ (turn.reads i).length = MAXLINE - 1 := by
  have different : (1 : UInt8) ≠ 0 := by decide
  rw [isolated_iff_possible member ready alone messages,
    text_possible_iff different (usesUpTo_fits member ready messages), knows_iff messages member ready]

/-- In the table of a server that runs, a client has its descriptor alone. -/
theorem Kept.alone (kept : server.Kept) (free : ∀ j, turn.beyond j < 0) (ready : server.Ready turn i) :
    ∀ j ∈ server.recvIndices, server.slot turn.beyond j = server.slot turn.beyond i → j = i := by
  intro j _ same
  have here := stores_of_slot free ready.1
  have there : server.Stores j (server.slot turn.beyond j) := stores_of_slot free (by rw [same]; exact ready.1)
  rw [same] at there
  exact kept.distinct j i _ there here

end

/-! ## Two clients -/

/-- A server with two clients, both ready. -/
def twoClients : Server where
  ctx := ⟨2, ⟨#[4, 5, -1, -1, -1, -1, -1, -1, -1, -1], rfl⟩, [4, 5], 5⟩
  opened := [0, 1, 2, 3, 4, 5]
  written := []
  running := true

/-- The first client sends five bytes, the second one. -/
def longAndShort : Turn where
  select := some [4, 5]
  accepted := none
  reads := fun i => if i = 0 then [65, 65, 65, 65, 65] else [66]
  beyond := fun _ => -1

theorem twoClients_messages : twoClients.Messages longAndShort := by
  unfold Messages
  decide

theorem twoClients_alone : ∀ i ∈ twoClients.recvIndices, ∀ j ∈ twoClients.recvIndices,
    twoClients.slot longAndShort.beyond j = twoClients.slot longAndShort.beyond i → j = i := by
  decide

/-- The first client that is ready is isolated. -/
theorem echo_isolated_first : twoClients.EchoIsolated longAndShort 0 := by
  refine (echo_isolated_iff (by decide) (by decide) (twoClients_alone 0 (by decide)) twoClients_messages).mpr ?_
  left
  intro j below
  exact absurd below (Nat.not_lt_zero j)

/-- The second client is echoed the end of the first one's message. -/
theorem echo_not_isolated : ¬ ∀ (server : Server) (turn : Turn) (i : Nat), i ∈ server.recvIndices →
    server.Ready turn i →
    (∀ j ∈ server.recvIndices, server.slot turn.beyond j = server.slot turn.beyond i → j = i) →
    server.Messages turn → server.EchoIsolated turn i := by
  intro claim
  have member : 1 ∈ twoClients.recvIndices := by decide
  have ready : twoClients.Ready longAndShort 1 := by decide
  have alone := twoClients_alone 1 member
  have isolated := claim twoClients longAndShort 1 member ready alone twoClients_messages
  rw [isolated_iff_possible member ready alone twoClients_messages,
    text_possible_iff (show (1 : UInt8) ≠ 0 by decide) (usesUpTo_fits member ready twoClients_messages),
    knows_iff twoClients_messages member ready] at isolated
  exact absurd isolated (by decide)

end Server

end KernelLearning.SelectServer
