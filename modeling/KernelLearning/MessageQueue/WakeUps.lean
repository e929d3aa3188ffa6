import KernelLearning.MessageQueue.Receiver

/-!
# Wake-ups and messages

Each wake-up of the receiver takes one message off the queue, and a message that
arrives on a queue that is not empty wakes nobody up.  So the messages that no
wake-up is due for are those that did not arrive on the empty, registered queue.
-/

namespace KernelLearning.MessageQueue

open Interaction

namespace System

/-- The wake-ups that have been announced and have not taken their message yet. -/
def due (system : System) : Nat :=
  system.pending.toNat + system.mqflag.toNat + if system.place = .notify ∨ system.place = .receive then 1 else 0

/-- The messages that no wake-up is due for. -/
def excess (system : System) : Nat := system.queue.length - system.due

/-- Every wake-up that is due has a message on the queue, and from the first `mq_notify` on there is
always one of: the registration, the pending signal, `mqflag`, and the `mq_notify` that is next. -/
structure Linked (system : System) : Prop where
  owed : system.due ≤ system.queue.length
  one : system.registered.toNat + system.pending.toNat + system.mqflag.toNat +
    (if system.place = .notify then 1 else 0) = if system.place = .opened then 0 else 1
  clear : system.place = .clear → system.mqflag = true
  suspended : system.place = .suspended → system.mqflag = false
  receive : system.place = .receive → system.registered = true
  mask : system.blocked = true ↔ system.place ≠ .opened ∧ system.place ≠ .block

theorem opened_linked (queue : List Message) : (System.opened queue).Linked := by
  constructor <;> simp [opened, due]

/-! ## Steps -/

/-- A message is sent only to the registered, empty queue. -/
def SentToEmpty (system : System) (event : Event) : Prop :=
  ∀ message, event = .send message → system.registered = true ∧ system.queue = []

/-- On the registered, empty queue, a message makes one more wake-up due. -/
theorem send_empty {system : System} (linked : system.Linked) (message : Message)
    (registered : system.registered = true) (empty : system.queue = []) :
    (system.send message).Linked ∧ (system.send message).excess = system.excess := by
  obtain ⟨owed, one, clear, suspended, receive, mask⟩ := linked
  obtain ⟨queue, _, pending, blocked, mqflag, place, printed⟩ := system
  obtain rfl : _ = true := registered
  obtain rfl : queue = [] := empty
  -- no message is there that a wake-up could be due for
  simp only [due, List.length_nil, Nat.le_zero_eq, Nat.add_eq_zero_iff, Bool.toNat_eq_zero] at owed
  obtain ⟨⟨rfl, rfl⟩, elsewhere⟩ := owed
  constructor
  · cases place <;> constructor <;> simp_all [send, due]
  · simp_all [send, excess, due]

/-- Otherwise it makes none due. -/
theorem send_nonempty {system : System} (linked : system.Linked) (message : Message)
    (other : ¬ (system.registered = true ∧ system.queue = [])) :
    (system.send message).Linked ∧ (system.send message).excess = system.excess + 1 := by
  have quiet : (system.registered && system.queue.isEmpty) = false := by
    rw [Bool.and_eq_false_iff, List.isEmpty_eq_false_iff]
    by_cases registered : system.registered = true
    · exact .inr fun empty => other ⟨registered, empty⟩
    · exact .inl (Bool.eq_false_iff.mpr registered)
  -- nobody is notified, so the queue is all that changes
  have same : system.send message = { system with queue := enqueue system.queue message } := by
    simp only [send, quiet, Bool.not_false, Bool.and_true, Bool.or_false]
  obtain ⟨owed, one, clear, suspended, receive, mask⟩ := linked
  have owed' : ({ system with queue := enqueue system.queue message } : System).due ≤
      (enqueue system.queue message).length := by
    rw [length_enqueue]
    exact Nat.le_succ_of_le owed
  rw [same]
  refine ⟨⟨owed', one, clear, suspended, receive, mask⟩, ?_⟩
  simp only [excess, length_enqueue]
  exact Nat.succ_sub owed

theorem deliver_linked {system : System} (linked : system.Linked) (deliverable : system.Deliverable) :
    system.deliver.Linked ∧ system.deliver.excess = system.excess := by
  obtain ⟨owed, one, clear, suspended, receive, mask⟩ := linked
  obtain ⟨queue, registered, pending, blocked, mqflag, place, printed⟩ := system
  obtain ⟨isPending, reachable⟩ := deliverable
  obtain rfl : pending = true := isPending
  simp only [due] at owed one clear suspended receive mask
  -- the signal is pending, so nothing else of the four is there
  have alone : registered = false ∧ mqflag = false ∧ place ≠ .notify := by
    cases registered <;> cases mqflag <;> cases place <;> simp_all
  obtain ⟨rfl, rfl, _⟩ := alone
  constructor
  · cases place <;> constructor <;> simp_all [due, deliver]
  · cases place <;> simp_all [due, deliver, excess]

/-- `main` takes a message exactly where it does away with a wake-up. -/
theorem run_balance {system system' : System} (linked : system.Linked) (ran : system.run = some system') :
    system'.queue.length + system.due = system.queue.length + system'.due := by
  obtain ⟨owed, one, clear, suspended, receive, mask⟩ := linked
  obtain ⟨queue, registered, pending, blocked, mqflag, place, printed⟩ := system
  cases place with
  | opened =>
    cases ran
    rfl
  | block =>
    cases ran
    rfl
  | test =>
    cases ran
    cases mqflag <;> rfl
  | suspended => cases ran
  | clear =>
    -- `mqflag` is given up, and `mq_receive` is to come for it
    cases ran
    obtain rfl : mqflag = true := clear rfl
    simp [due]
  | notify =>
    cases ran
    rfl
  | receive =>
    cases queue with
    | nil => cases ran
    | cons message rest =>
      cases ran
      simp only [due, List.length_cons, reduceCtorEq, or_true, or_self, if_true, if_false]
      omega
  | unblock =>
    cases ran
    rfl

theorem run_linked {system system' : System} (linked : system.Linked) (ran : system.run = some system') :
    system'.Linked ∧ system'.excess = system.excess := by
  have balance := run_balance linked ran
  have before : system.due ≤ system.queue.length := linked.owed
  have owed : system'.due ≤ system'.queue.length := by omega
  refine ⟨?_, by simp only [excess]; omega⟩
  -- the rest of the invariant says where the receiver may be, and with which `mqflag`
  clear balance before
  obtain ⟨_, one, clear, suspended, receive, mask⟩ := linked
  obtain ⟨queue, registered, pending, blocked, mqflag, place, printed⟩ := system
  cases place with
  | opened =>
    cases ran
    exact ⟨owed, by simp_all, nofun, nofun, nofun, by simp_all⟩
  | block =>
    cases ran
    exact ⟨owed, one, nofun, nofun, nofun, by simp⟩
  | test =>
    cases ran
    cases mqflag with
    | false => exact ⟨owed, one, nofun, fun _ => rfl, nofun, by simp_all⟩
    | true => exact ⟨owed, one, fun _ => rfl, nofun, nofun, by simp_all⟩
  | suspended => cases ran
  | clear =>
    cases ran
    obtain rfl : mqflag = true := clear rfl
    exact ⟨owed, by simp_all, nofun, nofun, nofun, by simp_all⟩
  | notify =>
    cases ran
    exact ⟨owed, by simp_all, nofun, nofun, fun _ => rfl, by simp_all⟩
  | receive =>
    cases queue with
    | nil => cases ran
    | cons message rest =>
      cases ran
      exact ⟨owed, one, nofun, nofun, nofun, by simp_all⟩
  | unblock =>
    cases ran
    exact ⟨owed, one, nofun, nofun, nofun, by simp⟩

theorem step_linked {maxmsg : Nat} {system system' : System} {event : Event} (linked : system.Linked)
    (taken : step maxmsg system event = some system') :
    system'.Linked ∧ (system.SentToEmpty event → system'.excess = system.excess) ∧
      (¬ system.SentToEmpty event → system'.excess = system.excess + 1) := by
  cases event with
  | send message =>
    simp only [step] at taken
    split at taken
    -- only a message to the registered, empty queue makes a wake-up due
    · cases taken
      by_cases fires : system.registered = true ∧ system.queue = []
      · obtain ⟨linked', same⟩ := send_empty linked message fires.1 fires.2
        refine ⟨linked', fun _ => same, fun other => absurd ?_ other⟩
        rintro _ _
        exact fires
      · obtain ⟨linked', more⟩ := send_nonempty linked message fires
        exact ⟨linked', fun sent => absurd (sent message rfl) fires, fun _ => more⟩
    · cases taken
  | deliver =>
    simp only [step] at taken
    split at taken
    · rename_i deliverable
      cases taken
      obtain ⟨linked', same⟩ := deliver_linked linked deliverable
      exact ⟨linked', fun _ => same, fun other => absurd nofun other⟩
    · cases taken
  | run =>
    obtain ⟨linked', same⟩ := run_linked linked taken
    exact ⟨linked', fun _ => same, fun other => absurd nofun other⟩

/-! ## The receiver on its own -/

/-- While the receiver is suspended and nothing will wake it up, the queue is empty. -/
def NoneMissed (system : System) : Prop :=
  system.place = .suspended → system.mqflag = false → system.pending = false → system.queue = []

theorem noneMissed_of_excess {system : System} (linked : system.Linked) (none : system.excess = 0) :
    system.NoneMissed := by
  intro place mqflag pending
  have owed := linked.owed
  simp only [excess, due, place, mqflag, pending, Bool.toNat_false, reduceCtorEq, or_self, if_false] at none owed
  exact List.eq_nil_of_length_eq_zero (by omega)

/-- Steps of the receiver alone: nobody sends. -/
def Own (past : List (System × Event)) : Prop := Throughout (fun _ event => ∀ message, event ≠ .send message) past

/-- How far the receiver is from being suspended for good. -/
def rank (system : System) : Nat :=
  20 * system.pending.toNat + 10 * system.mqflag.toNat +
    match system.place with
    | .opened => 6
    | .notify => 5
    | .receive => 4
    | .unblock => 3
    | .block => 2
    | .test => 1
    | .clear | .suspended => 0

/-- Unless it is suspended, the receiver goes on; it never waits in `mq_receive`. -/
theorem run_some {system : System} (linked : system.Linked) (awake : system.place ≠ .suspended) :
    ∃ system', system.run = some system' ∧ system'.rank < system.rank := by
  obtain ⟨owed, one, clear, suspended, receive, mask⟩ := linked
  obtain ⟨queue, registered, pending, blocked, mqflag, place, printed⟩ := system
  cases place with
  | opened => exact ⟨_, rfl, by simp [rank]⟩
  | block => exact ⟨_, rfl, by simp [rank]⟩
  | test =>
    refine ⟨_, rfl, ?_⟩
    cases mqflag <;> simp [rank]
  | suspended => exact absurd rfl awake
  | clear =>
    -- it left the loop around `sigsuspend`, so `mqflag` is set
    obtain rfl : mqflag = true := clear rfl
    exact ⟨_, rfl, by simp [rank]⟩
  | notify => exact ⟨_, rfl, by simp [rank]⟩
  | receive =>
    cases queue with
    -- `mq_receive` would wait here, but a wake-up is due that has its message
    | nil => simp [due] at owed
    | cons message rest => exact ⟨_, rfl, by simp [rank]⟩
  | unblock => exact ⟨_, rfl, by simp [rank]⟩

/-- With a message that no wake-up is due for, the receiver gets to where it misses it. -/
theorem misses_of_excess (maxmsg : Nat) {system : System} (linked : system.Linked) (extra : 0 < system.excess) :
    ∃ later last, Execution (step maxmsg) system later last ∧ Own later ∧ ¬ last.NoneMissed := by
  generalize size : system.rank = rank
  induction rank using Nat.strongRecOn generalizing system with
  | ind rank inductionHypothesis =>
    subst size
    -- one more step of the receiver brings it closer
    have closer : ∀ event system', step maxmsg system event = some system' → (∀ message, event ≠ .send message) →
        system'.rank < system.rank →
          ∃ later last, Execution (step maxmsg) system later last ∧ Own later ∧ ¬ last.NoneMissed := by
      intro event system' taken own less
      obtain ⟨linked', same, _⟩ := step_linked linked taken
      have kept := same fun message sent => absurd sent (own message)
      obtain ⟨later, last, execution, ownLater, missed⟩ :=
        inductionHypothesis _ less linked' (by rw [kept]; exact extra) rfl
      refine ⟨_, last, (Execution.start.step taken).append execution, ?_, missed⟩
      rw [Own, List.nil_append, throughout_append, throughout_singleton]
      exact ⟨own, ownLater⟩
    by_cases place : system.place = .suspended
    · have mqflag := linked.suspended place
      by_cases pending : system.pending = true
      · refine closer .deliver system.deliver (if_pos ⟨pending, .inr place⟩) nofun ?_
        simp [deliver, rank, place, pending, mqflag]
      · refine ⟨[], system, .start, throughout_nil _, fun noneMissed => ?_⟩
        have empty := noneMissed place mqflag (Bool.eq_false_iff.mpr pending)
        simp [excess, empty] at extra
    · obtain ⟨system', ran, less⟩ := run_some linked place
      exact closer .run system' ran nofun less

/-! ## Runs -/

theorem excess_eq_zero_iff {maxmsg : Nat} {queue : List Message} {past : List (System × Event)} {last : System}
    (execution : Execution (step maxmsg) (System.opened queue) past last) :
    last.Linked ∧ (last.excess = 0 ↔ queue = [] ∧ Throughout SentToEmpty past) := by
  induction execution with
  | start => exact ⟨opened_linked queue, by simp [excess, due, opened]⟩
  | @step past system event system' earlier taken inductionHypothesis =>
    obtain ⟨linked, none⟩ := inductionHypothesis
    obtain ⟨linked', same, more⟩ := step_linked linked taken
    refine ⟨linked', ?_⟩
    rw [throughout_append, throughout_singleton, ← and_assoc, ← none]
    by_cases sent : system.SentToEmpty event
    · rw [same sent, and_iff_left sent]
    · rw [more sent]
      exact iff_of_false (Nat.succ_ne_zero _) fun both => sent both.2

/-- The receiver on its own keeps what it has. -/
theorem own_excess {maxmsg : Nat} {system last : System} {later : List (System × Event)} (linked : system.Linked)
    (execution : Execution (step maxmsg) system later last) (own : Own later) :
    last.Linked ∧ last.excess = system.excess := by
  refine execution.invariant (fun state => state.Linked ∧ state.excess = system.excess) _ ⟨linked, rfl⟩ ?_ own
  intro state event state' kept own taken
  obtain ⟨linked', same, _⟩ := step_linked kept.1 taken
  exact ⟨linked', (same fun message sent => absurd sent (own message)).trans kept.2⟩

/-- No message is missed, in any state of a run or of what the receiver makes of it on its own,
exactly if the queue was empty when it was opened and every message was sent to the registered,
empty queue. -/
theorem none_missed_iff {maxmsg : Nat} {queue : List Message} {past : List (System × Event)} {last : System}
    (execution : Execution (step maxmsg) (System.opened queue) past last) :
    (∀ system ∈ reached past last, ∀ later final, Execution (step maxmsg) system later final → Own later →
      final.NoneMissed) ↔ queue = [] ∧ Throughout SentToEmpty past := by
  obtain ⟨linked, none⟩ := excess_eq_zero_iff execution
  constructor
  · intro noneMissed
    -- a message in excess would be missed by the receiver on its own
    rw [← none]
    rcases Nat.eq_zero_or_pos last.excess with nothing | extra
    · exact nothing
    · obtain ⟨later, final, continued, own, missed⟩ := misses_of_excess maxmsg linked extra
      have here : last ∈ reached past last := List.mem_append_right _ (List.mem_singleton_self _)
      exact absurd (noneMissed last here later final continued own) missed
  · rintro ⟨rfl, sent⟩ system member later final continued own
    -- nothing is in excess in any state of the run, and the receiver on its own keeps it so
    have kept := execution.invariant_reached (fun state => state.Linked ∧ state.excess = 0) SentToEmpty
      ⟨opened_linked [], by simp [excess, due, opened]⟩
      (by
        intro state event state' kept sent taken
        obtain ⟨linked', same, _⟩ := step_linked kept.1 taken
        exact ⟨linked', (same sent).trans kept.2⟩)
      sent system member
    obtain ⟨linked', same⟩ := own_excess kept.1 continued own
    exact noneMissed_of_excess linked' (same.trans kept.2)

def hello : Message := ⟨0, [104, 105]⟩

/-- One message is sent to the registered, empty queue, and wakes the receiver up. -/
theorem none_missed_one : ∃ past last, Execution (step 10) (System.opened []) past last ∧ past.length = 3 ∧
    ∀ system ∈ reached past last, ∀ later final, Execution (step 10) system later final → Own later →
      final.NoneMissed := by
  have begun : Execution (step 10) (System.opened []) [] (System.opened []) := .start
  have execution := ((begun.followedBy .run rfl).followedBy (.send hello) rfl).followedBy .deliver rfl
  refine ⟨_, _, execution, rfl, (none_missed_iff execution).mpr ⟨rfl, ?_⟩⟩
  simp only [List.nil_append, throughout_append, throughout_singleton]
  refine ⟨⟨?_, fun _ _ => ⟨rfl, rfl⟩⟩, ?_⟩
  · intro _ same
    cases same
  · intro _ same
    cases same

/-- Two messages come before the receiver has registered again. -/
def burst : List Event :=
  [.run, .send hello, .send hello, .deliver] ++ List.replicate 8 .run

theorem message_missed : ¬ ∀ (maxmsg : Nat) (past : List (System × Event)) (last : System),
    Execution (step maxmsg) (System.opened []) past last → ∀ system ∈ reached past last, system.NoneMissed := by
  intro claim
  have performed : perform (step 10) (System.opened []) burst = some _ := rfl
  obtain ⟨past, _, execution⟩ := execution_of_perform performed
  have none := claim 10 past _ execution _ (List.mem_append_right _ (List.mem_singleton_self _)) rfl rfl rfl
  cases none

end System

end KernelLearning.MessageQueue
