import Mathlib.Data.List.Basic
import KernelLearning.PollServer.Server

/-!
# A pass over the clients

`handle_connection` visits every slot once, so what it does at a slot depends on
the table before the pass only.
-/

namespace KernelLearning.PollServer

open Bytes

/-- What is sent after a read, with what a `write` past the buffer sends. -/
def ReadResult.answer (overrun : List UInt8) : ReadResult → List UInt8
  | .failed => overrun
  | .got bytes _ => bytes

namespace Server

/-- The slot has a descriptor, with `POLLIN` in its `revents`. -/
def ready (server : Server) (i : Nat) : Bool :=
  decide (0 ≤ (server.clientfds i).fd) && (server.clientfds i).readable

/-- The bytes that the turn of a ready slot sends. -/
def answer (round : Round) (i : Nat) : List UInt8 := (round.reads i).answer (round.overrun i (sizeT (-1)))

variable {round : Round} {state : Server × List UInt8} {i : Nat}

/-! ## One turn -/

theorem handleTurn_idle (idle : state.1.ready i = false) : handleTurn round state i = state := by
  simp only [ready, Bool.and_eq_false_iff, decide_eq_false_iff_not, Int.not_le] at idle
  simp only [handleTurn]
  cases idle with
  | inl free => rw [if_pos free]
  | inr quiet =>
    split
    · rfl
    · rw [quiet]
      rfl

theorem closeClient_other (server : Server) {j : Nat} (different : j ≠ i) :
    (server.closeClient i).clientfds j = server.clientfds j := if_neg different

/-- A turn changes no other slot. -/
theorem handleTurn_other {j : Nat} (different : j ≠ i) :
    (handleTurn round state i).1.clientfds j = state.1.clientfds j := by
  simp only [handleTurn]
  split
  · rfl
  split
  · split
    · exact closeClient_other _ different
    · rfl
  · rfl

theorem length_readInto (buf : List UInt8) (result : ReadResult) : (readInto buf result).2.length = buf.length := by
  cases result with
  | failed => rfl
  | got bytes fits => exact length_overlay buf 0 bytes

theorem handleTurn_length : (handleTurn round state i).2.length = state.2.length := by
  simp only [handleTurn]
  split
  · rfl
  split
  · split <;> exact length_readInto _ _
  · rfl

theorem handleTurn_reads (ready : state.1.ready i = true) :
    (handleTurn round state i).1.reads = state.1.reads ++ [(i, (state.1.clientfds i).fd)] := by
  obtain ⟨taken, readable⟩ := Bool.and_eq_true_iff.mp ready
  simp only [decide_eq_true_eq] at taken
  simp only [handleTurn, if_neg (Int.not_lt.mpr taken), readable, if_true]
  split <;> rfl

/-- A read of `n` bytes is answered with the first `n` bytes of the buffer, which are those read. -/
theorem writeFrom_readInto {buf : List UInt8} (full : buf.length = MAXLINE) (result : ReadResult)
    (overrun : Nat → List UInt8) (some : (readInto buf result).1 ≠ 0) :
    writeFrom (readInto buf result).2 (sizeT (readInto buf result).1) overrun =
      result.answer (overrun (sizeT (-1))) := by
  cases result with
  | failed =>
    -- -1 as a size is larger than any buffer
    have large : ¬ sizeT (-1) ≤ buf.length := by
      rw [full]
      decide
    exact if_neg large
  | got bytes fits =>
    have count : sizeT bytes.length = bytes.length := by
      simp only [MAXLINE] at fits
      simp only [sizeT]
      omega
    have within : bytes.length ≤ buf.length := by rw [full]; exact fits
    simp only [readInto, writeFrom, count, overlay_at_zero within]
    rw [if_pos (by simp), List.take_left]
    rfl

theorem handleTurn_sent (full : state.2.length = MAXLINE) (ready : state.1.ready i = true) :
    (handleTurn round state i).1.sent =
      state.1.sent ++ (answer round i).map fun byte => ((state.1.clientfds i).fd, byte) := by
  obtain ⟨taken, readable⟩ := Bool.and_eq_true_iff.mp ready
  simp only [decide_eq_true_eq] at taken
  simp only [handleTurn, if_neg (Int.not_lt.mpr taken), readable, if_true]
  split
  · -- the end of the stream: no bytes, and no `write`
    rename_i none
    have nothing : answer round i = [] := by
      cases result : round.reads i with
      | failed => simp [result, readInto] at none
      | got bytes fits =>
        simpa [answer, ReadResult.answer, result, readInto] using none
    rw [nothing, List.map_nil, List.append_nil]
    rfl
  · rename_i some
    simp only [writeFrom_readInto full _ _ some, answer]

/-! ## The pass -/

/-- Slots that are visited later are as they were. -/
theorem ready_congr {server server' : Server} (same : server'.clientfds i = server.clientfds i) :
    server'.ready i = server.ready i := by
  simp only [ready, same]

/-- What the loop reads and sends, in the order of the slots. -/
theorem loop_reads_sent {indices : List Nat} (distinct : indices.Nodup) (state : Server × List UInt8)
    (full : state.2.length = MAXLINE) :
    (indices.foldl (handleTurn round) state).1.reads =
        state.1.reads ++ (indices.filter state.1.ready).map (fun i => (i, (state.1.clientfds i).fd)) ∧
      (indices.foldl (handleTurn round) state).1.sent =
        state.1.sent ++ (indices.filter state.1.ready).flatMap fun i =>
          (answer round i).map fun byte => ((state.1.clientfds i).fd, byte) := by
  induction indices generalizing state with
  | nil => simp
  | cons index indices inductionHypothesis =>
    obtain ⟨fresh, distinct⟩ := List.nodup_cons.mp distinct
    have later : ∀ i ∈ indices, (handleTurn round state index).1.clientfds i = state.1.clientfds i := by
      intro i member
      refine handleTurn_other fun same => ?_
      rw [same] at member
      exact fresh member
    have sameReady : indices.filter (handleTurn round state index).1.ready = indices.filter state.1.ready :=
      List.filter_congr fun i member => ready_congr (later i member)
    have laterReady : ∀ i ∈ indices.filter state.1.ready,
        (handleTurn round state index).1.clientfds i = state.1.clientfds i :=
      fun i member => later i (List.mem_filter.mp member).1
    -- the rest of the loop, said of the table before the turn
    have rest := inductionHypothesis distinct (handleTurn round state index) (handleTurn_length.trans full)
    rw [sameReady,
      List.map_congr_left fun i member => congrArg (fun entry => (i, PollFd.fd entry)) (laterReady i member),
      List.flatMap_congr fun i member =>
        congrArg (fun entry => (answer round i).map fun byte => (PollFd.fd entry, byte)) (laterReady i member)] at rest
    rw [List.foldl_cons, rest.1, rest.2]
    cases now : state.1.ready index with
    | false => simp only [handleTurn_idle now, List.filter_cons, now, Bool.false_eq_true, if_false, and_self]
    | true =>
      simp only [handleTurn_reads now, handleTurn_sent full now, List.filter_cons, now, if_true,
        List.map_cons, List.flatMap_cons, List.append_assoc, List.singleton_append, and_self]

/-- The ready slots that a pass visits. -/
def readySlots (server : Server) (num : Nat) : List Nat := (List.range' 1 num).filter server.ready

theorem handleConnection_reads (server : Server) (num : Nat) (round : Round) :
    (server.handleConnection num round).reads =
      server.reads ++ (server.readySlots num).map fun i => (i, (server.clientfds i).fd) :=
  (loop_reads_sent List.nodup_range' _ List.length_replicate).1

theorem handleConnection_sent (server : Server) (num : Nat) (round : Round) :
    (server.handleConnection num round).sent =
      server.sent ++ (server.readySlots num).flatMap fun i =>
        (answer round i).map fun byte => ((server.clientfds i).fd, byte) :=
  (loop_reads_sent List.nodup_range' _ List.length_replicate).2

end Server

end KernelLearning.PollServer
