import KernelLearning.SelectServer.Slots

/-!
# The clients in the set

No client lies at or past `cli_cnt`: a client is put into the first free slot, so
every slot before it is taken, and the counter never goes down.  So the loop up to
`cli_cnt` that fills the set for `select` meets every client there is.
-/

namespace KernelLearning.SelectServer

open Interaction

namespace Server

/-! ## What the table stores -/

/-- The slot is occupied, by this client. -/
def Stores (server : Server) (i : Nat) (clifd : Int) : Prop :=
  server.ctx.clifds[i]? = some clifd ∧ 0 ≤ clifd

theorem Stores.slot {server : Server} {i : Nat} {clifd : Int} (stores : server.Stores i clifd)
    (beyond : Nat → Int) : server.slot beyond i = clifd := by
  simp [Server.slot, stores.1]

/-- With the memory behind the table free, an occupied slot is one of the table. -/
theorem stores_of_slot {server : Server} {beyond : Nat → Int} (free : ∀ i, beyond i < 0) {i : Nat}
    (occupied : 0 ≤ server.slot beyond i) : server.Stores i (server.slot beyond i) := by
  refine ⟨?_, occupied⟩
  simp only [Server.slot] at occupied ⊢
  cases entry : server.ctx.clifds[i]? with
  | none =>
    rw [entry] at occupied
    exact absurd (free i) (Int.not_lt.mpr occupied)
  | some clifd => rfl

theorem stores_setSlot {server : Server} {i j : Nat} {fd clifd : Int} :
    (server.setSlot i fd).Stores j clifd ↔
      (j = i ∧ i < SIZE ∧ clifd = fd ∧ 0 ≤ clifd) ∨ (j ≠ i ∧ server.Stores j clifd) := by
  simp only [Stores, setSlot, Vector.getElem?_setIfInBounds]
  by_cases here : i = j
  · subst here
    by_cases inside : i < SIZE
    · simp [inside, eq_comm]
    · simp [inside]
  · simp [here, Ne.symm here]

/-! ## The invariant -/

/-- The occupied slots lie below the counter, and hold distinct open descriptors. -/
structure Kept (server : Server) : Prop where
  below : ∀ i clifd, server.Stores i clifd → i < server.ctx.cliCnt
  distinct : ∀ i j clifd, server.Stores i clifd → server.Stores j clifd → i = j
  isOpen : ∀ i clifd, server.Stores i clifd → clifd ∈ server.opened

/-- The rest of the server does not matter. -/
theorem Kept.of_eq {server server' : Server} (kept : server.Kept)
    (clifds : server'.ctx.clifds = server.ctx.clifds) (cliCnt : server'.ctx.cliCnt = server.ctx.cliCnt)
    (opened : server'.opened = server.opened) : server'.Kept := by
  have same : ∀ i clifd, server'.Stores i clifd ↔ server.Stores i clifd := by
    intro i clifd
    simp only [Stores, clifds]
  constructor
  · intro i clifd stores
    rw [cliCnt]
    exact kept.below i clifd ((same i clifd).mp stores)
  · intro i j clifd first second
    exact kept.distinct i j clifd ((same i clifd).mp first) ((same j clifd).mp second)
  · intro i clifd stores
    rw [opened]
    exact kept.isOpen i clifd ((same i clifd).mp stores)

theorem init_kept (srvfd : Int) : (Server.init srvfd).Kept := by
  have empty : ∀ i clifd, ¬ (Server.init srvfd).Stores i clifd := by
    intro i clifd stores
    have entry := stores.1
    simp only [Server.init, Vector.getElem?_replicate] at entry
    split at entry
    · cases entry
      exact absurd stores.2 (by decide)
    · cases entry
  exact ⟨fun i clifd stores => absurd stores (empty i clifd),
    fun i _ clifd stores => absurd stores (empty i clifd), fun i clifd stores => absurd stores (empty i clifd)⟩

/-! ## Accepting -/

/-- The slots before the first free one are occupied, so the counter has reached that one. -/
theorem first_free_le {server : Server} (kept : server.Kept) {i : Nat} (inside : i < SIZE)
    (occupied : ∀ j < i, 0 ≤ server.slot (fun _ => 0) j) : i ≤ server.ctx.cliCnt := by
  cases i with
  | zero => exact Nat.zero_le _
  | succ previous =>
    have stores : server.Stores previous (server.slot (fun _ => 0) previous) := by
      refine ⟨?_, occupied previous (Nat.lt_succ_self _)⟩
      rw [slot_eq _ (Nat.lt_of_succ_lt inside)]
      exact Vector.getElem?_eq_getElem _
    exact kept.below previous _ stores

theorem accept_kept {server : Server} (kept : server.Kept) {accepted : Option Int}
    (accepts : server.Accepts accepted) : (server.acceptClientProc accepted).Kept := by
  cases accepted with
  | none => exact kept
  | some clifd =>
    obtain ⟨nonneg, fresh⟩ := accepts clifd rfl
    -- the descriptor is open from now on, and in no slot yet
    have notStored : ∀ i, ¬ server.Stores i clifd := fun i stores => fresh (kept.isOpen i clifd stores)
    simp only [acceptClientProc]
    split
    · constructor
      · exact kept.below
      · exact kept.distinct
      · exact fun i other stores => List.mem_cons_of_mem _ (kept.isOpen i other stores)
    · rename_i i found
      rw [List.find?_range_eq_some] at found
      obtain ⟨_, inside, earlier⟩ := found
      have inside : i < SIZE := List.mem_range.mp inside
      have reaches : i ≤ server.ctx.cliCnt := by
        refine first_free_le kept inside ?_
        intro j before
        have taken := earlier j before
        simp only [Bool.not_eq_true', decide_eq_false_iff_not, Int.not_lt] at taken
        exact taken
      have stores : ∀ j other,
          (Server.setSlot { server with opened := clifd :: server.opened } i clifd).Stores j other ↔
          (j = i ∧ i < SIZE ∧ other = clifd ∧ 0 ≤ other) ∨ (j ≠ i ∧ server.Stores j other) :=
        fun j other => stores_setSlot
      constructor
      · intro j other stored
        cases (stores j other).mp stored with
        | inl new => exact Nat.lt_succ_of_le (by rw [new.1]; exact reaches)
        | inr old => exact Nat.lt_succ_of_lt (kept.below j other old.2)
      · intro j k other first second
        cases (stores j other).mp first with
        | inl new =>
          cases (stores k other).mp second with
          | inl new' => rw [new.1, new'.1]
          | inr old =>
            rw [new.2.2.1] at old
            exact absurd old.2 (notStored k)
        | inr old =>
          cases (stores k other).mp second with
          | inl new =>
            rw [new.2.2.1] at old
            exact absurd old.2 (notStored j)
          | inr old' => exact kept.distinct j k other old.2 old'.2
      · intro j other stored
        cases (stores j other).mp stored with
        | inl new =>
          rw [new.2.2.1]
          exact List.mem_cons_self
        | inr old => exact List.mem_cons_of_mem _ (kept.isOpen j other old.2)

/-! ## Receiving -/

/-- A client that leaves takes its descriptor along; those of the others differ from it. -/
theorem drop_kept {server : Server} (kept : server.Kept) {i : Nat} {clifd : Int}
    (stores : server.Stores i clifd) : (server.dropClient i clifd).Kept := by
  have still : ∀ j other, (server.dropClient i clifd).Stores j other → j ≠ i ∧ server.Stores j other := by
    intro j other stored
    cases stores_setSlot.mp stored with
    | inl freed =>
      have nonneg := freed.2.2.2
      rw [freed.2.2.1] at nonneg
      exact absurd nonneg (by decide)
    | inr kept => exact kept
  constructor
  · intro j other stored
    exact kept.below j other (still j other stored).2
  · intro j k other first second
    exact kept.distinct j k other (still j other first).2 (still k other second).2
  · intro j other stored
    obtain ⟨elsewhere, before⟩ := still j other stored
    have different : other ≠ clifd := by
      intro same
      rw [same] at before
      exact elsewhere (kept.distinct j i clifd before stores)
    exact (List.mem_erase_of_ne different).mpr (kept.isOpen j other before)

theorem recvTurn_kept {turn : Turn} (free : ∀ i, turn.beyond i < 0) (state : Server × List UInt8) (i : Nat)
    (kept : state.1.Kept) : (recvTurn turn state i).1.Kept := by
  by_cases gone : Gone turn state.1 i
  · rw [recvTurn_gone gone]
    exact drop_kept kept (stores_of_slot free gone.1)
  · have same := recvTurn_present gone
    refine kept.of_eq (by rw [same]) (by rw [same]) ?_
    -- without a client that is gone nothing is closed
    simp only [recvTurn]
    split
    · rfl
    · rename_i nonneg
      split
      · rename_i ready
        split
        · rename_i none
          have nothing : turn.reads i = [] := by simpa [MAXLINE] using none
          exact absurd ⟨Int.not_lt.mp nonneg, ready, nothing⟩ gone
        · rfl
      · rfl

theorem recv_kept {turn : Turn} (free : ∀ i, turn.beyond i < 0) {server : Server} (kept : server.Kept) :
    (server.recvClientMsg turn).Kept := by
  have loop : ∀ (indices : List Nat) (state : Server × List UInt8), state.1.Kept →
      (indices.foldl (recvTurn turn) state).1.Kept := by
    intro indices
    induction indices with
    | nil => exact fun _ kept => kept
    | cons index indices inductionHypothesis =>
      exact fun state kept => inductionHypothesis _ (recvTurn_kept free state index kept)
  exact loop _ _ kept

/-! ## One turn -/

theorem watch_opened (srvfd : Int) (turn : Turn) (server : Server) :
    (server.watch srvfd turn).opened = server.opened := by
  have loop : ∀ (indices : List Nat) (state : Server),
      (indices.foldl (watchTurn turn) state).opened = state.opened := by
    intro indices
    induction indices with
    | nil => exact fun _ => rfl
    | cons index indices inductionHypothesis => exact fun state => inductionHypothesis (watchTurn turn state index)
  exact loop _ _

theorem turn_kept {srvfd : Int} {server server' : Server} {turn : Turn} (kept : server.Kept)
    (free : ∀ i, turn.beyond i < 0) (taken : handleClientProc srvfd server turn = some server') : server'.Kept := by
  obtain ⟨cliCnt, clifds⟩ := watch_kept srvfd turn server
  have opened := watch_opened srvfd turn server
  have selected_kept : ∀ ready, (server.selected srvfd turn ready).Kept :=
    fun ready => kept.of_eq clifds cliCnt opened
  cases turned taken with
  | failed select after =>
    rw [after]
    exact kept.of_eq clifds cliCnt opened
  | timeout select after =>
    rw [after]
    exact selected_kept []
  | accepted ready select member accepts after =>
    rw [after]
    exact accept_kept (selected_kept ready) accepts
  | received ready receives after =>
    rw [after]
    exact recv_kept free (selected_kept ready)

/-! ## The set for `select` -/

/-- The loop that fills the set keeps what is in it, adds every client it meets, and keeps `maxfd`
at least at every descriptor it met. -/
theorem watchLoop (turn : Turn) (indices : List Nat) (server : Server) :
    (∀ fd, fd ∈ server.ctx.allfds → fd ∈ (indices.foldl (watchTurn turn) server).ctx.allfds) ∧
      server.ctx.maxfd ≤ (indices.foldl (watchTurn turn) server).ctx.maxfd ∧
      ∀ i ∈ indices, ∀ clifd, server.Stores i clifd →
        clifd ∈ (indices.foldl (watchTurn turn) server).ctx.allfds ∧
          clifd ≤ (indices.foldl (watchTurn turn) server).ctx.maxfd := by
  induction indices generalizing server with
  | nil => exact ⟨fun _ member => member, Int.le_refl _, fun _ member => absurd member List.not_mem_nil⟩
  | cons index indices inductionHypothesis =>
    obtain ⟨members, largest, clients⟩ := inductionHypothesis (watchTurn turn server index)
    have grows : ∀ fd, fd ∈ server.ctx.allfds → fd ∈ (watchTurn turn server index).ctx.allfds := by
      intro fd member
      simp only [watchTurn]
      split
      · exact List.mem_insert_of_mem member
      · exact member
    have higher : server.ctx.maxfd ≤ (watchTurn turn server index).ctx.maxfd := by
      simp only [watchTurn]
      split <;> omega
    rw [List.foldl_cons]
    refine ⟨fun fd member => members fd (grows fd member), Int.le_trans higher largest, ?_⟩
    intro i member clifd stores
    cases List.mem_cons.mp member with
    | inr later => exact clients i later clifd stores
    | inl here =>
      -- the turn for this index puts the client in, and what follows keeps it
      have slot : server.slot turn.beyond index = clifd := by
        rw [← here]
        exact stores.slot turn.beyond
      have nonneg := stores.2
      refine ⟨members clifd ?_, Int.le_trans ?_ largest⟩
      · simp only [watchTurn, slot]
        rw [if_pos (by omega)]
        exact List.mem_insert_self
      · simp only [watchTurn, slot]
        split <;> omega

/-- The descriptors that `select` is to watch: the listening socket and every client. -/
def Watched (srvfd : Int) (server : Server) (fd : Int) : Prop :=
  fd = srvfd ∨ ∃ i, server.Stores i fd

/-- The clients are stored below the counter under distinct descriptors, and the next turn gives
them all to `select`, together with the listening socket and within `nfds`. -/
structure Covered (srvfd : Int) (server : Server) : Prop where
  below : ∀ i clifd, server.Stores i clifd → i < server.ctx.cliCnt
  distinct : ∀ i j clifd, server.Stores i clifd → server.Stores j clifd → i = j
  inSet : ∀ turn fd, server.Watched srvfd fd → fd ∈ (server.watch srvfd turn).ctx.allfds
  belowNfds : ∀ turn fd, server.Watched srvfd fd → fd < (server.watch srvfd turn).ctx.maxfd + 1

theorem kept_covered {srvfd : Int} {server : Server} (kept : server.Kept) : server.Covered srvfd := by
  have watches : ∀ turn fd, server.Watched srvfd fd →
      fd ∈ (server.watch srvfd turn).ctx.allfds ∧ fd ≤ (server.watch srvfd turn).ctx.maxfd := by
    intro turn fd watched
    obtain ⟨members, largest, clients⟩ := watchLoop turn server.watchIndices
      { server with ctx := { server.ctx with allfds := FdSet.set [] srvfd, maxfd := srvfd } }
    cases watched with
    | inl listening =>
      rw [listening]
      have first : srvfd ∈ FdSet.set [] srvfd := List.mem_insert_self
      exact ⟨members srvfd first, largest⟩
    | inr client =>
      obtain ⟨i, stores⟩ := client
      exact clients i (List.mem_range.mpr (kept.below i fd stores)) fd stores
  exact ⟨kept.below, kept.distinct, fun turn fd watched => (watches turn fd watched).1,
    fun turn fd watched => Int.lt_add_one_of_le (watches turn fd watched).2⟩

/-- No client is left unwatched, in any run in which the memory behind the table reads as free. -/
theorem clients_watched {srvfd : Int} {past : List (Server × Turn)} {last : Server}
    (execution : Execution (handleClientProc srvfd) (Server.init srvfd) past last)
    (free : Throughout (fun _ turn => ∀ i, turn.beyond i < 0) past) :
    ∀ server ∈ reached past last, server.Covered srvfd := by
  intro server member
  refine kept_covered (execution.invariant_reached Kept _ (init_kept srvfd) ?_ free server member)
  intro server turn server' kept free taken
  exact turn_kept kept free taken

/-- A client connects, sends a message and leaves. -/
theorem clients_watched_short :
    ∃ past last, Execution (handleClientProc 3) (Server.init 3) past last ∧ past.length = 3 ∧
      ∀ server ∈ reached past last, server.Covered 3 := by
  have begun : Execution (handleClientProc 3) (Server.init 3) [] (Server.init 3) := .start
  have told := (begun.followedBy (connects 4) rfl).followedBy (sends 4 [104, 105]) rfl
  have execution := told.followedBy (sends 4 []) rfl
  refine ⟨_, _, execution, rfl, clients_watched execution ?_⟩
  simp only [List.nil_append, throughout_append, throughout_singleton]
  exact ⟨⟨fun _ => Int.negSucc_lt_zero 0, fun _ => Int.negSucc_lt_zero 0⟩, fun _ => Int.negSucc_lt_zero 0⟩

end Server

end KernelLearning.SelectServer
