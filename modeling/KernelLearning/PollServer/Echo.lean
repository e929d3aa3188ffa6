import Mathlib.Algebra.Order.BigOperators.Group.List
import Mathlib.Algebra.Order.Group.Nat
import KernelLearning.PollServer.Pass
import KernelLearning.PollServer.Table

/-!
# What the poll server echoes

A read that fails returns -1, which `write` gets as a count of 2^64 - 1.  The system refuses it,
so the client is sent nothing.
-/

namespace KernelLearning.PollServer

open Interaction

/-! ## Lists -/

/-- Pieces that can only be longer make the same whole if each of them is the same. -/
theorem flatMap_eq_iff {α β : Type} {xs : List α} {f g : α → List β} (longer : ∀ x ∈ xs, (g x).length ≤ (f x).length) :
    xs.flatMap f = xs.flatMap g ↔ ∀ x ∈ xs, f x = g x := by
  constructor
  · induction xs with
    | nil => simp
    | cons x xs inductionHypothesis =>
      rw [List.forall_mem_cons] at longer ⊢
      intro same
      simp only [List.flatMap_cons] at same
      have rest : (xs.flatMap g).length ≤ (xs.flatMap f).length := by
        simp only [List.length_flatMap]
        exact List.sum_le_sum longer.2
      have lengths := congrArg List.length same
      simp only [List.length_append] at lengths
      obtain ⟨here, there⟩ := List.append_inj same (by omega)
      exact ⟨here, inductionHypothesis longer.2 there⟩
  · exact List.flatMap_congr

namespace Server

variable {server : Server} {round : Round}

/-- The bytes that the `read` of the slot got. -/
def echo (round : Round) (i : Nat) : List UInt8 := (round.reads i).answer []

/-- The pass sends every ready client what was read from it, and nothing else. -/
def Echoes (server : Server) (num : Nat) (round : Round) : Prop :=
  (server.handleConnection num round).sent =
    server.sent ++ (server.readySlots num).flatMap fun i =>
      (echo round i).map fun byte => ((server.clientfds i).fd, byte)

theorem answer_eq_echo_iff {i : Nat} :
    answer round i = echo round i ↔ (round.reads i = .failed → round.overrun i (sizeT (-1)) = []) := by
  cases result : round.reads i with
  | failed => simp [answer, echo, ReadResult.answer, result]
  | got bytes fits => simp [answer, echo, ReadResult.answer, result]

theorem echo_le_answer (round : Round) (i : Nat) : (echo round i).length ≤ (answer round i).length := by
  cases result : round.reads i with
  | failed => simp [answer, echo, ReadResult.answer, result]
  | got bytes fits => simp [answer, echo, ReadResult.answer, result]

theorem echoes_iff_answers (server : Server) (num : Nat) (round : Round) :
    server.Echoes num round ↔ ∀ i ∈ server.readySlots num, answer round i = echo round i := by
  have longer : ∀ i ∈ server.readySlots num,
      ((echo round i).map fun byte => ((server.clientfds i).fd, byte)).length ≤
        ((answer round i).map fun byte => ((server.clientfds i).fd, byte)).length := by
    intro i _
    simpa only [List.length_map] using echo_le_answer round i
  rw [Echoes, handleConnection_sent, List.append_cancel_left_eq, flatMap_eq_iff longer]
  refine forall_congr' fun i => imp_congr_right fun _ => ?_
  exact (List.map_injective_iff.mpr fun _ _ same => congrArg Prod.snd same).eq_iff

/-- The server echoes what it read exactly when, after every failed read, a `write` of 2^64 - 1
bytes sends nothing. -/
theorem echoes_iff (server : Server) (num : Nat) (round : Round) :
    server.Echoes num round ↔
      ∀ i ∈ server.readySlots num, round.reads i = .failed → round.overrun i (sizeT (-1)) = [] := by
  simp only [echoes_iff_answers, answer_eq_echo_iff]

def SSIZE_MAX : Nat := 2 ^ 63 - 1

/-- The system refuses a `write` with a count above `SSIZE_MAX`, which then sends nothing. -/
def Refuses (round : Round) : Prop := ∀ i count, SSIZE_MAX < count → round.overrun i count = []

/-- Every pass echoes what it read. -/
theorem echoes_read (server : Server) (num : Nat) {round : Round} (refuses : Refuses round) :
    server.Echoes num round :=
  (echoes_iff server num round).mpr fun i _ _ => refuses i (sizeT (-1)) (by decide)

/-- The connection of the first client was reset, and the second one has sent two bytes. -/
def resetRound : Round where
  poll := some fun i => if i = 0 then 0 else POLLIN
  accepted := .failed
  reads i := if i = 1 then .failed else .got [65, 66] (by decide)
  overrun _ _ := []

/-- Two clients connect, and one of them is echoed. -/
theorem echoes_read_reset : ∃ past server revents,
    Execution (doPoll 3) (init 3 emptyMemory) past server ∧ resetRound.poll = some revents ∧
      server.clients = [6, 5] ∧
      ((server.polling revents).handleConnection server.maxi resetRound).sent = [(6, 65), (6, 66)] := by
  obtain ⟨next, first, last, second, clients, revents, polls, echoed⟩ :
      ∃ next, doPoll 3 (init 3 emptyMemory) firstRound = some next ∧
        ∃ last, doPoll 3 next { firstRound with accepted := .connected 6 } = some last ∧ last.clients = [6, 5] ∧
        ∃ revents, resetRound.poll = some revents ∧
          (last.polling revents).sent ++ ((last.polling revents).readySlots last.maxi).flatMap
            (fun i => (echo resetRound i).map fun byte => (((last.polling revents).clientfds i).fd, byte)) =
          [(6, 65), (6, 66)] :=
    ⟨_, rfl, _, rfl, rfl, _, rfl, by decide +kernel⟩
  have execution := (Execution.start.followedBy firstRound first).followedBy _ second
  exact ⟨_, last, revents, execution, polls, clients, (echoes_read _ _ fun _ _ _ => rfl).trans echoed⟩

end Server

end KernelLearning.PollServer
