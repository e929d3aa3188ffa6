import KernelLearning.CSemantics.Chains
import KernelLearning.CSemantics.Text

/-!
# print_all_task_stack

The processes are a ring through `tasks` from `init_task` on, and the threads of each are a ring
through `thread_group`.  The dump goes round all of them twice; the states of the tasks may change
in between.  What the kernel prints of a stack is a parameter.
-/

namespace KernelLearning.LoadMonitor

open CSemantics

/-! ## The program -/

/-- The members of `struct task_struct` that the dump uses, but for `state`. -/
structure TaskStruct (κ : Type) where
  tasks : κ
  threadGroup : κ
  comm : List Byte
  pid : Int

section Loops

variable {κ σ : Type} (heap : κ → Option (TaskStruct κ))

def nextTask (p : κ) : Option κ := (heap p).map TaskStruct.tasks

def nextThread (p : κ) : Option κ := (heap p).map TaskStruct.threadGroup

variable [DecidableEq κ] (body : κ → σ → Option σ)

/-- `do body while_each_thread(g, t)`. -/
def whileEachThread (g : κ) : Nat → κ → σ → Option σ
  | 0, _, _ => none
  | turns + 1, t, state =>
    (body t state).bind fun state => (nextThread heap t).bind fun t =>
      if t ≠ g then whileEachThread g turns t state else some state

/-- `do_each_thread(g, t)` with that loop as its body, from `g` on. -/
def doEachThread (initTask : κ) (turns : Nat) : Nat → κ → σ → Option σ
  | 0, _, _ => none
  | count + 1, g, state =>
    (nextTask heap g).bind fun g =>
      if g ≠ initTask then
        (whileEachThread heap body g turns g state).bind fun state => doEachThread initTask turns count g state
      else some state

end Loops

def FSHIFT : UInt64 := 11
def FIXED_1 : UInt64 := 1 <<< FSHIFT

def LOAD_INT (x : UInt64) : UInt64 := x >>> FSHIFT

/-- The product binds before the `&`. -/
def LOAD_FRAC (x : UInt64) : UInt64 := LOAD_INT (x &&& (FIXED_1 - 1) * 100)

def TASK_RUNNING : UInt64 := 0x0000
def TASK_UNINTERRUPTIBLE : UInt64 := 0x0002

/-- `%02lu`. -/
def twoDigits (value : Nat) : List Byte :=
  if value < 10 then ascii "0" ++ decimalNat value else decimalNat value

/-- What the dump finds: the tasks, their states in the first and in the second round, `avenrun`,
and the traces of their stacks.  The rings and the traces stay as they are while it lasts. -/
structure Snapshot (κ : Type) where
  heap : κ → Option (TaskStruct κ)
  initTask : κ
  running : κ → UInt64
  uninterruptible : κ → UInt64
  avenrun : UInt64 × UInt64 × UInt64
  stackTrace : κ → List Byte

variable {κ : Type}

def printLoad (x : UInt64) : List Byte :=
  decimalNat (LOAD_INT x).toNat ++ ascii "." ++ twoDigits (LOAD_FRAC x).toNat

def Snapshot.header (snapshot : Snapshot κ) : List Byte :=
  ascii "!!!!!!!!!!!!!!!!!!!!!!!!!!!!!\n" ++ ascii "\tLoad: " ++ printLoad snapshot.avenrun.1 ++ ascii ", " ++
    printLoad snapshot.avenrun.2.1 ++ ascii ", " ++ printLoad snapshot.avenrun.2.2 ++ ascii "\n"

/-- The line of a task, with its stack. -/
def printTask (snapshot : Snapshot κ) (title : List Byte) (p : κ) (task : TaskStruct κ) : List Byte :=
  title ++ ascii ", comm: " ++ task.comm ++ ascii ", pid " ++ decimal task.pid ++ ascii "\n" ++ snapshot.stackTrace p

/-- The body of either loop. -/
def printIf (snapshot : Snapshot κ) (shows : κ → Bool) (title : List Byte) (p : κ) (log : List Byte) :
    Option (List Byte) :=
  (snapshot.heap p).map fun task => if shows p then log ++ printTask snapshot title p task else log

def Snapshot.isRunning (snapshot : Snapshot κ) (p : κ) : Bool := snapshot.running p = TASK_RUNNING

def Snapshot.isUninterruptible (snapshot : Snapshot κ) (p : κ) : Bool :=
  snapshot.uninterruptible p &&& TASK_UNINTERRUPTIBLE ≠ 0

/-- What is printed, if no loop takes more turns than given. -/
def printAllTaskStack [DecidableEq κ] (turns : Nat) (snapshot : Snapshot κ) : Option (List Byte) :=
  (doEachThread snapshot.heap (printIf snapshot snapshot.isRunning (ascii "running task")) snapshot.initTask turns
    turns snapshot.initTask (snapshot.header ++ ascii "dump running task.\n")).bind fun log =>
  doEachThread snapshot.heap (printIf snapshot snapshot.isUninterruptible (ascii "uninterruptible task"))
    snapshot.initTask turns turns snapshot.initTask (log ++ ascii "dump uninterrupted task.\n")

/-! ## Going round -/

/-- The pointers to the next process and to the next thread. -/
def tasksOf (task : TaskStruct κ) : Option κ := some task.tasks

def threadGroupOf (task : TaskStruct κ) : Option κ := some task.threadGroup

/-- From the head on, the pointers visit these and come back to the head. -/
structure IsRing (next : TaskStruct κ → Option κ) (heap : κ → Option (TaskStruct κ)) (head : κ) (others : List κ) :
    Prop where
  around : ∃ task, heap head = some task ∧ Leads next heap (next task) others (some head)
  apart : head ∉ others

/-- The processes behind `init_task`, and the threads of each. -/
structure AreTasks (heap : κ → Option (TaskStruct κ)) (initTask : κ) (processes : List κ) (threads : κ → List κ) :
    Prop where
  ring : IsRing tasksOf heap initTask processes
  groups : ∀ p ∈ processes, IsRing threadGroupOf heap p (threads p)

/-- All threads in the order of the loops. -/
def allThreads (processes : List κ) (threads : κ → List κ) : List κ := processes.flatMap fun p => p :: threads p

section

variable {σ : Type} {heap : κ → Option (TaskStruct κ)} {body : κ → σ → Option σ} {task : TaskStruct κ}

theorem nextTask_of_leads {p : κ} {others : List κ} {last : κ} (found : heap p = some task)
    (leads : Leads tasksOf heap (tasksOf task) others (some last)) :
    nextTask heap p = some ((others ++ [last]).head (by simp)) := by
  have here : nextTask heap p = tasksOf task := by
    rw [nextTask, found]
    rfl
  cases others with
  | nil => exact here.trans leads
  | cons other others => exact here.trans leads.1

theorem nextThread_of_leads {p : κ} {others : List κ} {last : κ} (found : heap p = some task)
    (leads : Leads threadGroupOf heap (threadGroupOf task) others (some last)) :
    nextThread heap p = some ((others ++ [last]).head (by simp)) := by
  have here : nextThread heap p = threadGroupOf task := by
    rw [nextThread, found]
    rfl
  cases others with
  | nil => exact here.trans leads
  | cons other others => exact here.trans leads.1

variable [DecidableEq κ]

/-- The inner loop visits the thread and the ones that are left of the ring. -/
theorem whileEachThread_visits {g : κ} {others : List κ} (apart : g ∉ others) {turns : Nat}
    (enough : others.length < turns) {t : κ} (found : heap t = some task)
    (leads : Leads threadGroupOf heap (threadGroupOf task) others (some g)) (state : σ) :
    whileEachThread heap body g turns t state = (t :: others).foldlM (fun state t => body t state) state := by
  induction others generalizing turns t task state with
  | nil =>
    obtain ⟨left, rfl⟩ := Nat.exists_eq_succ_of_ne_zero (Nat.ne_of_gt enough)
    simp only [whileEachThread, nextThread_of_leads found leads, List.nil_append, List.head_cons, Option.bind_some,
      ne_eq, not_true_eq_false, if_false, List.foldlM_cons, List.foldlM_nil]
    rfl
  | cons other others inductionHypothesis =>
    obtain ⟨left, rfl⟩ := Nat.exists_eq_succ_of_ne_zero (Nat.ne_of_gt (Nat.zero_lt_of_lt enough))
    obtain ⟨different, apart⟩ := not_or.mp (mt List.mem_cons.mpr apart)
    have next := nextThread_of_leads found leads
    obtain ⟨_, task', found', leads'⟩ := leads
    simp only [List.cons_append, List.head_cons] at next
    have enough' : others.length < left := by
      rw [List.length_cons] at enough
      omega
    rw [whileEachThread, List.foldlM_cons]
    refine Option.bind_congr fun state' _ => ?_
    rw [next, Option.bind_some, if_pos (Ne.symm different)]
    exact inductionHypothesis apart enough' found' leads' state'

/-- The outer loop does so for each process that is left. -/
theorem doEachThread_visits {initTask : κ} {processes : List κ} {threads : κ → List κ} {turns : Nat}
    (apart : initTask ∉ processes) (rings : ∀ p ∈ processes, IsRing threadGroupOf heap p (threads p))
    (few : ∀ p ∈ processes, (threads p).length < turns) {count : Nat} (enough : processes.length < count) {g : κ}
    (found : heap g = some task) (leads : Leads tasksOf heap (tasksOf task) processes (some initTask)) (state : σ) :
    doEachThread heap body initTask turns count g state =
      (allThreads processes threads).foldlM (fun state t => body t state) state := by
  induction processes generalizing count g task state with
  | nil =>
    obtain ⟨left, rfl⟩ := Nat.exists_eq_succ_of_ne_zero (Nat.ne_of_gt enough)
    simp only [doEachThread, nextTask_of_leads found leads, List.nil_append, List.head_cons, Option.bind_some,
      ne_eq, not_true_eq_false, if_false]
    rfl
  | cons p processes inductionHypothesis =>
    obtain ⟨left, rfl⟩ := Nat.exists_eq_succ_of_ne_zero (Nat.ne_of_gt (Nat.zero_lt_of_lt enough))
    obtain ⟨different, apart⟩ := not_or.mp (mt List.mem_cons.mpr apart)
    have next := nextTask_of_leads found leads
    obtain ⟨_, task', found', leads'⟩ := leads
    obtain ⟨ring, rings⟩ := List.forall_mem_cons.mp rings
    obtain ⟨here, few⟩ := List.forall_mem_cons.mp few
    simp only [List.cons_append, List.head_cons] at next
    obtain ⟨⟨leader, foundLeader, group⟩, alone⟩ := ring
    have enough' : processes.length < left := by
      rw [List.length_cons] at enough
      omega
    rw [doEachThread, next, Option.bind_some, if_pos (Ne.symm different),
      whileEachThread_visits alone here foundLeader group, allThreads, List.flatMap_cons, List.foldlM_append]
    refine Option.bind_congr fun state' _ => ?_
    exact inductionHypothesis apart rings few enough' found' leads' state'

end

/-! ## The whole dump -/

section

variable [DecidableEq κ] {snapshot : Snapshot κ} {processes : List κ} {threads : κ → List κ}

/-- The lines of the tasks that are shown, in order. -/
def report (snapshot : Snapshot κ) (shows : κ → Bool) (title : List Byte) (visited : List κ) : List Byte :=
  (visited.filter shows).flatMap fun p => ((snapshot.heap p).map (printTask snapshot title p)).getD []

omit [DecidableEq κ] in
theorem foldlM_printIf (shows : κ → Bool) (title : List Byte) {visited : List κ}
    (present : ∀ p ∈ visited, ∃ task, snapshot.heap p = some task) (log : List Byte) :
    visited.foldlM (fun log p => printIf snapshot shows title p log) log =
      some (log ++ report snapshot shows title visited) := by
  induction visited generalizing log with
  | nil => simp [report]
  | cons p visited inductionHypothesis =>
    obtain ⟨⟨task, found⟩, present⟩ := List.forall_mem_cons.mp present
    have printed : printIf snapshot shows title p log =
        some (if shows p then log ++ printTask snapshot title p task else log) := by
      rw [printIf, found, Option.map_some]
    rw [List.foldlM_cons, printed]
    refine (inductionHypothesis present _).trans ?_
    cases here : shows p with
    | false => simp [report, here]
    | true => simp [report, here, found]

omit [DecidableEq κ] in
theorem present_allThreads {heap : κ → Option (TaskStruct κ)} {initTask : κ}
    (tasks : AreTasks heap initTask processes threads) :
    ∀ p ∈ allThreads processes threads, ∃ task, heap p = some task := by
  intro p member
  obtain ⟨leader, among, here⟩ := List.mem_flatMap.mp member
  obtain ⟨⟨task, found, group⟩, _⟩ := tasks.groups leader among
  rcases List.mem_cons.mp here with rfl | behind
  · exact ⟨task, found⟩
  · exact group.exists_node behind

/-- The dump comes to its end for all processes and threads there are: it shows the threads that
run, and then those that are uninterruptible, in the order of the rings; `init_task` is not shown. -/
theorem printAllTaskStack_reports (tasks : AreTasks snapshot.heap snapshot.initTask processes threads) {turns : Nat}
    (enough : processes.length < turns) (few : ∀ p ∈ processes, (threads p).length < turns) :
    printAllTaskStack turns snapshot = some (snapshot.header ++ ascii "dump running task.\n" ++
      report snapshot snapshot.isRunning (ascii "running task") (allThreads processes threads) ++
      ascii "dump uninterrupted task.\n" ++
      report snapshot snapshot.isUninterruptible (ascii "uninterruptible task") (allThreads processes threads)) := by
  obtain ⟨⟨⟨task, found, leads⟩, apart⟩, rings⟩ := tasks
  have present := present_allThreads ⟨⟨⟨task, found, leads⟩, apart⟩, rings⟩
  simp only [printAllTaskStack, doEachThread_visits apart rings few enough found leads,
    foldlM_printIf _ _ present, Option.bind_some]

end

/-- A process with one more thread. -/
def shellAndThread : Snapshot Nat where
  heap := fun p => match p with
    | 0 => some ⟨1, 0, ascii "swapper", 0⟩
    | 1 => some ⟨0, 2, ascii "sh", 7⟩
    | 2 => some ⟨0, 1, ascii "sh", 8⟩
    | _ => none
  initTask := 0
  running := fun p => if p = 2 then TASK_RUNNING else TASK_UNINTERRUPTIBLE
  uninterruptible := fun _ => TASK_UNINTERRUPTIBLE
  avenrun := (2048, 0, 0)
  stackTrace := fun _ => ascii "+\n"

theorem printAllTaskStack_reports_shell :
    printAllTaskStack 2 shellAndThread = some (shellAndThread.header ++ ascii "dump running task.\n" ++
      ascii "running task, comm: sh, pid 8\n+\n" ++ ascii "dump uninterrupted task.\n" ++
      ascii "uninterruptible task, comm: sh, pid 7\n+\nuninterruptible task, comm: sh, pid 8\n+\n") := by
  have tasks : AreTasks shellAndThread.heap shellAndThread.initTask [1] (fun _ => [2]) := by
    refine ⟨⟨⟨⟨1, 0, ascii "swapper", 0⟩, rfl, rfl, ⟨0, 2, ascii "sh", 7⟩, rfl, rfl⟩, by decide⟩, ?_⟩
    intro p member
    obtain rfl := List.mem_singleton.mp member
    exact ⟨⟨⟨0, 2, ascii "sh", 7⟩, rfl, rfl, ⟨0, 1, ascii "sh", 8⟩, rfl, rfl⟩, by decide⟩
  exact (printAllTaskStack_reports tasks (by decide) (by decide)).trans (by decide +kernel)

end KernelLearning.LoadMonitor
