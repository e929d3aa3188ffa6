import KernelLearning.Interaction.Executions

/-!
# The receiver of the message queue example

The loop of `main` for the option `-s`, and `sig_usr1`, next to other processes that
send.  The queue is that of POSIX: the registration of `mq_notify` fires `SIGUSR1`
once, when a message arrives on the empty queue, and is gone then.  The handler stays
installed, and `SIGUSR1` is not blocked before the loop.
-/

namespace KernelLearning.MessageQueue

structure Message where
  prio : Nat
  text : List UInt8

/-- Where `main` is: before the first `mq_notify`, before `SIG_BLOCK`, before the test of `mqflag`,
in `sigsuspend`, before `mqflag = 0`, before the `mq_notify` of the loop, before `mq_receive`, and
before `SIG_UNBLOCK`. -/
inductive Place where
  | opened
  | block
  | test
  | suspended
  | clear
  | notify
  | receive
  | unblock
  deriving DecidableEq

/-- The queue with the registration for notification, and the process: whether `SIGUSR1` is pending
and blocked, whether `mqflag` is set, where it is, and what it printed. -/
structure System where
  queue : List Message
  registered : Bool
  pending : Bool
  blocked : Bool
  mqflag : Bool
  place : Place
  printed : List (List UInt8)

/-- After `mq_open` of a queue that may hold messages already. -/
def System.opened (queue : List Message) : System where
  queue := queue
  registered := false
  pending := false
  blocked := false
  mqflag := false
  place := .opened
  printed := []

/-- Another process sends, the signal is delivered, or `main` goes on. -/
inductive Event where
  | send (message : Message)
  | deliver
  | run

/-- The queue is ordered by priority, and by age within one priority. -/
def enqueue (queue : List Message) (message : Message) : List Message :=
  queue.takeWhile (message.prio ≤ ·.prio) ++ message :: queue.dropWhile (message.prio ≤ ·.prio)

namespace System

/-- `mq_send`. -/
def send (system : System) (message : Message) : System :=
  let fires := system.registered && system.queue.isEmpty
  { system with
    queue := enqueue system.queue message
    registered := system.registered && !fires
    pending := system.pending || fires }

/-- `sig_usr1`, and the return from `sigsuspend` if that is where the signal comes. -/
def deliver (system : System) : System :=
  { system with
    pending := false
    mqflag := true
    place := if system.place = .suspended then .test else system.place }

/-- The next operation of `main`; `none` while it is suspended, or waits in `mq_receive`. -/
def run (system : System) : Option System :=
  match system.place with
  | .opened => some { system with registered := true, place := .block }
  | .block => some { system with blocked := true, place := .test }
  | .test => some { system with place := if system.mqflag then .clear else .suspended }
  | .suspended => none
  | .clear => some { system with mqflag := false, place := .notify }
  | .notify => some { system with registered := true, place := .receive }
  | .receive =>
    match system.queue with
    | [] => none
    | message :: rest =>
      some { system with queue := rest, printed := system.printed ++ [message.text], place := .unblock }
  | .unblock => some { system with blocked := false, place := .block }

/-- A signal that is pending is delivered when it is not blocked; `sigsuspend` blocks nothing. -/
def Deliverable (system : System) : Prop :=
  system.pending = true ∧ (system.blocked = false ∨ system.place = .suspended)

instance (system : System) : Decidable system.Deliverable := inferInstanceAs (Decidable (_ ∧ _))

end System

/-- The queue holds up to `maxmsg` messages; a process that sends more has to wait. -/
def step (maxmsg : Nat) (system : System) : Event → Option System
  | .send message => if system.queue.length < maxmsg then some (system.send message) else none
  | .deliver => if system.Deliverable then some system.deliver else none
  | .run => system.run

@[simp] theorem length_enqueue (queue : List Message) (message : Message) :
    (enqueue queue message).length = queue.length + 1 := by
  have parts := congrArg List.length
    (@List.takeWhile_append_dropWhile _ (fun other => decide (message.prio ≤ other.prio)) queue)
  simp only [List.length_append] at parts
  simp only [enqueue, List.length_append, List.length_cons]
  omega

end KernelLearning.MessageQueue
