import KernelLearning.GlobalFifo.Frames
import KernelLearning.Interaction.Executions

/-!
# What a call takes and gives back

Every call is to return with the mutex released, its wait entry off both queues
and its task running, and only the holder is to release the mutex.  Writes, polls
and ioctls do so in every interleaving.  `globalfifo_read` never takes the mutex
before it releases it or copies, and its success path returns past both labels,
so an execution is disciplined exactly when no read in it gets that far.
-/

namespace KernelLearning.GlobalFifo

open Interaction

variable {Process : Type} [DecidableEq Process]

/-! ## The discipline -/

/-- What a process owes when it returns from a call. -/
structure Released (system : System Process) (process : Process) : Prop where
  mutex : system.dev.mutex ≠ some process
  rWait : .declared process ∉ system.dev.rWait
  wWait : .declared process ∉ system.dev.wWait
  running : system.state process = .running

/-- A statement that releases the mutex is executed by its holder, and a return by a process
that has given everything back. -/
def Disciplined (system : System Process) : Event Process → Prop
  | .step process _ =>
    ((system.activity process).AtUnlock → system.dev.mutex = some process) ∧
      ((system.activity process).outcome.isSome → Released system process)
  | _ => True

/-- The statements by which a read first goes wrong. -/
def Activity.LeavesRead : Activity → Prop
  | .read _ _ .unlock | .read _ _ (.out _) | .read _ _ (.ret _) => True
  | _ => False

/-- The event is not a `mutex_unlock` or a return of `globalfifo_read`. -/
def NoReadExit (system : System Process) : Event Process → Prop
  | .step process _ => ¬ (system.activity process).LeavesRead
  | _ => True

/-! ## The account of a process -/

/-- Where a process holds the mutex. -/
def Activity.holds : Activity → Bool
  | .write _ _ .lock | .write _ _ .schedule | .write _ _ .signalPending | .write _ _ .relock
  | .write _ _ (.out2 _) | .write _ _ (.setRunning _) | .write _ _ (.ret _) => false
  | .write _ _ _ => true
  | .poll _ .lock | .poll _ (.ret _) => false
  | .poll _ _ => true
  | .ioctl _ .clear | .ioctl _ .unlock => true
  | _ => false

/-- How many entries of its own a process has on `r_wait`. -/
def Activity.readEntries : Activity → Nat
  | .read _ _ .addWait => 0
  | .read _ _ _ => 1
  | _ => 0

/-- How many entries of its own a process has on `w_wait`. -/
def Activity.writeEntries : Activity → Nat
  | .write _ _ .lock | .write _ _ .addWait | .write _ _ (.setRunning _) | .write _ _ (.ret _) => 0
  | .write _ _ _ => 1
  | _ => 0

/-- Where a process need not be running. -/
def Activity.mayWait : Activity → Bool
  | .read _ _ .unlock | .write _ _ .unlock | .write _ _ .schedule => true
  | _ => false

/-- A read before its first `mutex_unlock` or return, or no read. -/
def Activity.early : Activity → Bool
  | .read _ _ .schedule | .read _ _ .signalPending | .read _ _ .lock
  | .read _ _ (.out2 _) | .read _ _ (.setRunning _) => false
  | _ => true

/-- What a process holds is what its activity says. -/
structure Account (system : System Process) (process : Process) (activity : Activity) : Prop where
  mutex : system.dev.mutex = some process ↔ activity.holds = true
  rWait : system.dev.rWait.count (.declared process) = activity.readEntries
  wWait : system.dev.wWait.count (.declared process) = activity.writeEntries
  running : activity.mayWait = false → system.state process = .running
  early : activity.early = true

def Accounted (system : System Process) : Prop :=
  ∀ process, Account system process (system.activity process)

theorem Account.frame {system system' : System Process} {other : Process} {activity : Activity}
    (account : Account system other activity) (frame : Frame other system system') :
    Account system' other activity where
  mutex := frame.mutex.trans account.mutex
  rWait := frame.rWait.trans account.rWait
  wWait := frame.wWait.trans account.wWait
  running still := frame.running (account.running still)
  early := account.early

/-! ## One statement -/

variable {system arrived : System Process} {process other : Process} {fault : Option (List UInt8)}

theorem read_account {count : Nat} {nonblock : Bool} {pc pc' : ReadPc}
    (account : Account system process (.read count nonblock pc))
    (rule : ReadStep system process count nonblock fault pc arrived pc')
    (inside : ¬ (Activity.read count nonblock pc).LeavesRead) :
    Account arrived process (.read count nonblock pc') := by
  obtain ⟨mutex, rWait, wWait, running, early⟩ := account
  cases rule with
  | addWait =>
    refine ⟨mutex, ?_, wWait, running, rfl⟩
    simpa [Activity.readEntries] using rWait
  | setInterruptible => exact ⟨mutex, rWait, wWait, by simp [Activity.mayWait], rfl⟩
  | unlock | out => exact absurd trivial inside
  | wakeWriters bytes =>
    refine ⟨mutex, rWait, wWait, fun _ => ?_, rfl⟩
    simp [running rfl]
  | woken | interrupted | restart | retry | lock | out2 | setRunning => exact absurd early Bool.false_ne_true
  | _ => exact ⟨mutex, rWait, wWait, running, rfl⟩

theorem write_account {buf : List UInt8} {nonblock : Bool} {pc pc' : WritePc}
    (account : Account system process (.write buf nonblock pc))
    (rule : WriteStep system process buf nonblock pc arrived pc') :
    Account arrived process (.write buf nonblock pc') := by
  obtain ⟨mutex, rWait, wWait, running, early⟩ := account
  cases rule with
  | lock | relock => exact ⟨by simp [Activity.holds], rWait, wWait, running, rfl⟩
  | addWait =>
    refine ⟨mutex, rWait, ?_, running, rfl⟩
    simpa [Activity.writeEntries] using wWait
  | setInterruptible => exact ⟨mutex, rWait, wWait, by simp [Activity.mayWait], rfl⟩
  | unlock => exact ⟨by simp [Activity.holds], rWait, wWait, by simp [Activity.mayWait], rfl⟩
  | woken awake => exact ⟨mutex, rWait, wWait, fun _ => awake, rfl⟩
  | interrupted => exact ⟨mutex, rWait, wWait, fun _ => by simp, rfl⟩
  | wakeReaders ret =>
    refine ⟨mutex, rWait, wWait, fun _ => ?_, rfl⟩
    simp [running rfl]
  | killFasync ret =>
    refine ⟨mutex, rWait, wWait, fun _ => ?_, rfl⟩
    simp [running rfl]
  | out ret => exact ⟨by simp [Activity.holds], rWait, wWait, running, rfl⟩
  | out2 ret =>
    refine ⟨mutex, rWait, ?_, running, rfl⟩
    simp only [Activity.writeEntries] at wWait
    simp [Activity.writeEntries, wWait]
  | setRunning ret => exact ⟨mutex, rWait, wWait, fun _ => by simp, rfl⟩
  | _ => exact ⟨mutex, rWait, wWait, running, rfl⟩

theorem poll_account {table : Bool} {pc pc' : PollPc} (account : Account system process (.poll table pc))
    (rule : PollStep system process pc arrived pc') : Account arrived process (.poll table pc') := by
  obtain ⟨mutex, rWait, wWait, running, early⟩ := account
  cases rule with
  | lock => exact ⟨by simp [Activity.holds], rWait, wWait, running, rfl⟩
  | pollWaitRead entries polled => exact ⟨mutex, (count_polled polled _ _).trans rWait, wWait, running, rfl⟩
  | pollWaitWrite entries polled => exact ⟨mutex, rWait, (count_polled polled _ _).trans wWait, running, rfl⟩
  | test mask => exact ⟨mutex, rWait, wWait, running, rfl⟩
  | unlock mask => exact ⟨by simp [Activity.holds], rWait, wWait, running, rfl⟩

theorem ioctl_account {cmd : Nat} {pc pc' : IoctlPc} (account : Account system process (.ioctl cmd pc))
    (rule : IoctlStep system process cmd pc arrived pc') : Account arrived process (.ioctl cmd pc') := by
  obtain ⟨mutex, rWait, wWait, running, early⟩ := account
  cases rule with
  | lock => exact ⟨by simp [Activity.holds], rWait, wWait, running, rfl⟩
  | unlock => exact ⟨by simp [Activity.holds], rWait, wWait, running, rfl⟩
  | _ => exact ⟨mutex, rWait, wWait, running, rfl⟩

/-- A process that is about to release the mutex holds it, unless it is in a read. -/
theorem Account.held {activity : Activity} (account : Account system process activity)
    (inside : ¬ activity.LeavesRead) (atUnlock : activity.AtUnlock) : system.dev.mutex = some process := by
  rw [account.mutex]
  cases activity with
  | idle => exact absurd atUnlock id
  | read count nonblock pc => cases pc <;> first | exact absurd atUnlock id | exact absurd trivial inside
  | write buf nonblock pc => cases pc <;> first | rfl | exact absurd atUnlock id
  | poll table pc => cases pc <;> first | rfl | exact absurd atUnlock id
  | ioctl cmd pc => cases pc <;> first | rfl | exact absurd atUnlock id

/-- A process that is about to return owns nothing, unless it is in a read. -/
theorem empty_of_returning {activity : Activity} (inside : ¬ activity.LeavesRead)
    (returning : activity.outcome.isSome) : activity.holds = false ∧ activity.readEntries = 0 ∧
      activity.writeEntries = 0 ∧ activity.mayWait = false := by
  cases activity with
  | idle => exact ⟨rfl, rfl, rfl, rfl⟩
  | read count nonblock pc =>
    cases pc <;> first | exact absurd returning Bool.false_ne_true | exact absurd trivial inside
  | write buf nonblock pc =>
    cases pc <;> first | exact ⟨rfl, rfl, rfl, rfl⟩ | exact absurd returning Bool.false_ne_true
  | poll table pc =>
    cases pc <;> first | exact ⟨rfl, rfl, rfl, rfl⟩ | exact absurd returning Bool.false_ne_true
  | ioctl cmd pc =>
    cases pc <;> first | exact ⟨rfl, rfl, rfl, rfl⟩ | exact absurd returning Bool.false_ne_true

theorem Account.released {activity : Activity} (account : Account system process activity)
    (inside : ¬ activity.LeavesRead) (returning : activity.outcome.isSome) : Released system process := by
  obtain ⟨holds, readEntries, writeEntries, mayWait⟩ := empty_of_returning inside returning
  refine ⟨?_, ?_, ?_, account.running mayWait⟩
  · rw [Ne, account.mutex, holds]
    exact Bool.false_ne_true
  · rw [← List.count_eq_zero, account.rWait, readEntries]
  · rw [← List.count_eq_zero, account.wWait, writeEntries]

/-- A process that has returned owns nothing. -/
theorem Account.returned {activity : Activity} (account : Account system process activity)
    (inside : ¬ activity.LeavesRead) (returning : activity.outcome.isSome) :
    Account system process .idle := by
  obtain ⟨holds, readEntries, writeEntries, mayWait⟩ := empty_of_returning inside returning
  refine ⟨?_, account.rWait.trans readEntries, account.wWait.trans writeEntries, ?_, rfl⟩
  · rw [account.mutex, holds]
    rfl
  · exact fun _ => account.running mayWait

/-- A read that is about to release the mutex or to return breaks the discipline. -/
theorem Account.not_disciplined
    (account : Account system process (system.activity process))
    (leaves : (system.activity process).LeavesRead) : ¬ Disciplined system (.step process fault) := by
  rintro ⟨unlocks, returns⟩
  cases here : system.activity process with
  | read count nonblock pc =>
    rw [here] at account leaves unlocks returns
    cases pc with
    | unlock | out =>
      -- a read has no mutex on its first way here
      have held := account.mutex.mp (unlocks trivial)
      exact absurd held Bool.false_ne_true
    | ret outcome =>
      -- it is still on the queue: after the copy it returns past `out2`
      have listed : system.dev.rWait.count (.declared process) = 1 := account.rWait
      have absent := List.count_eq_zero.mpr (returns rfl).rWait
      omega
    | _ => exact absurd leaves id
  | _ =>
    rw [here] at leaves
    exact absurd leaves id

/-! ## Every interleaving -/

/-- A process whose own account follows its activity. -/
theorem Account.goto {activity : Activity} (account : Account arrived process activity) :
    Account (arrived.goto process activity) process ((arrived.goto process activity).activity process) := by
  obtain ⟨mutex, rWait, wWait, running, early⟩ := account
  simp only [System.goto, Function.update_self]
  exact ⟨mutex, rWait, wWait, running, early⟩

theorem accounted_of_frames {system' : System Process} (accounted : Accounted system)
    (frames : ∀ other, Frame other system system') : Accounted system' := by
  intro other
  rw [(frames other).activity]
  exact (accounted other).frame (frames other)

theorem accounted_probed : Accounted (System.probed : System Process) := by
  intro process
  refine ⟨?_, rfl, rfl, fun _ => rfl, rfl⟩
  simp [System.probed, Activity.holds]

theorem account_step {system' : System Process} (account : Account system process (system.activity process))
    (inside : ¬ (system.activity process).LeavesRead) (step : Step system process fault system') :
    Account system' process (system'.activity process) := by
  cases step with
  | returns outcome returning => exact (account.returned inside (by rw [returning]; rfl)).goto
  | read here rule =>
    rw [here] at account inside
    exact (read_account account rule inside).goto
  | write here rule =>
    rw [here] at account
    exact (write_account account rule).goto
  | poll here rule =>
    rw [here] at account
    exact (poll_account account rule).goto
  | ioctl here rule =>
    rw [here] at account
    exact (ioctl_account account rule).goto

theorem accounted_step {system' : System Process} (accounted : Accounted system)
    (inside : ¬ (system.activity process).LeavesRead) (step : Step system process fault system') :
    Accounted system' := by
  intro other
  by_cases same : other = process
  · subst same
    exact account_step (accounted other) inside step
  · have frame := step_frame step (fun atUnlock => by simp [(accounted process).held inside atUnlock]) same
    rw [frame.activity]
    exact (accounted other).frame frame

/-- A process that enters a call owns nothing yet. -/
theorem accounted_call {call : Call} (accounted : Accounted system) (idle : system.activity process = .idle) :
    Accounted (system.goto process call.entry) := by
  intro other
  by_cases same : other = process
  · subst same
    have account := accounted other
    rw [idle] at account
    obtain ⟨mutex, rWait, wWait, running, early⟩ := account
    apply Account.goto
    cases call with
    | read count nonblock => exact ⟨mutex, rWait, wWait, running, rfl⟩
    | write buf nonblock => exact ⟨mutex, rWait, wWait, running, rfl⟩
    | poll table => exact ⟨mutex, rWait, wWait, running, rfl⟩
    | ioctl cmd => exact ⟨mutex, rWait, wWait, running, rfl⟩
  · obtain ⟨mutex, rWait, wWait, running, early⟩ := accounted other
    simp only [System.goto, Function.update_of_ne same]
    exact ⟨mutex, rWait, wWait, running, early⟩

theorem accounted_next {system' : System Process} {event : Event Process} (accounted : Accounted system)
    (inside : NoReadExit system event) (taken : system.next event = some system') : Accounted system' := by
  cases next_cases taken with
  | call call idle => exact accounted_call accounted idle
  | step step => exact accounted_step accounted inside step
  | external external => exact accounted_of_frames accounted external.frame

/-- Under the account, exactly the exits of a read break the discipline. -/
theorem disciplined_iff {event : Event Process} (accounted : Accounted system) :
    Disciplined system event ↔ NoReadExit system event := by
  cases event with
  | step process fault =>
    constructor
    · intro disciplined leaves
      exact (accounted process).not_disciplined leaves disciplined
    · intro inside
      exact ⟨(accounted process).held inside, (accounted process).released inside⟩
  | _ => exact .rfl

/-- For any number of processes and every interleaving of their calls: the discipline is kept
throughout exactly when no `globalfifo_read` comes as far as a `mutex_unlock` or its return. -/
theorem discipline_kept_iff {past : List (System Process × Event Process)} {last : System Process}
    (execution : Execution System.next .probed past last) :
    Throughout Disciplined past ↔ Throughout NoReadExit past :=
  execution.throughout_iff Accounted accounted_probed
    (fun _ _ _ => accounted_next) fun _ _ _ accounted _ => disciplined_iff accounted

/-- One process clears the queue while the write of another one begins. -/
theorem discipline_kept_iff_clear : ∃ past, ∃ last : System Bool,
    past.map Prod.snd = [.call true (.ioctl fifoClear), .call false (.write [7] false), .step true none,
      .step true none, .step true none, .step true none, .step true none] ∧
      Execution System.next .probed past last ∧ Throughout Disciplined past := by
  have begins : Execution System.next (System.probed : System Bool) [] .probed := .start
  have execution := ((((((begins.followedBy (.call true (.ioctl fifoClear)) rfl).followedBy
    (.call false (.write [7] false)) rfl).followedBy (.step true none) rfl).followedBy
    (.step true none) rfl).followedBy (.step true none) rfl).followedBy (.step true none) rfl).followedBy
    (.step true none) rfl
  refine ⟨_, _, rfl, execution, (discipline_kept_iff execution).mpr ?_⟩
  simp only [throughout_append, throughout_singleton, throughout_nil]
  exact ⟨⟨⟨⟨⟨⟨⟨trivial, trivial⟩, trivial⟩, id⟩, id⟩, id⟩, id⟩, id⟩

/-- A nonblocking read of the empty device executes `mutex_unlock` without holding the mutex. -/
theorem not_disciplined_emptyRead : ∃ past, ∃ last : System Bool,
    past.map Prod.snd = [.call true (.read 1 true), .step true none, .step true none, .step true none] ∧
      Execution System.next .probed past last ∧ ¬ Throughout Disciplined past := by
  refine ⟨_, _, ?_, (((Execution.start.followedBy (.call true (.read 1 true)) rfl).followedBy
    (.step true none) rfl).followedBy (.step true none) rfl).followedBy (.step true none) rfl, ?_⟩
  · rfl
  · intro disciplined
    simp only [throughout_append, throughout_singleton] at disciplined
    exact absurd (disciplined.2.1 trivial) (by simp [System.probed])

end KernelLearning.GlobalFifo
