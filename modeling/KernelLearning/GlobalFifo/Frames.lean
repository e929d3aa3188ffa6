import KernelLearning.GlobalFifo.Steps

/-!
# What a step of one process leaves to another

A process changes another one's account only by waking it, as long as it does not
release a mutex that the other one holds.
-/

namespace KernelLearning.GlobalFifo

variable {Process : Type} [DecidableEq Process]

/-- The statements that execute `mutex_unlock`. -/
def Activity.AtUnlock : Activity → Prop
  | .read _ _ .unlock | .read _ _ (.out _) => True
  | .write _ _ .unlock | .write _ _ (.out _) => True
  | .poll _ (.unlock _) => True
  | .ioctl _ .unlock => True
  | _ => False

/-- What a step of one process leaves to another. -/
structure Frame (other : Process) (system system' : System Process) : Prop where
  activity : system'.activity other = system.activity other
  mutex : system'.dev.mutex = some other ↔ system.dev.mutex = some other
  rWait : system'.dev.rWait.count (.declared other) = system.dev.rWait.count (.declared other)
  wWait : system'.dev.wWait.count (.declared other) = system.dev.wWait.count (.declared other)
  running : system.state other = .running → system'.state other = .running

/-! ## Frames of the effects -/

section Frames

variable {system : System Process} {process other : Process}

theorem Frame.refl (system : System Process) : Frame other system system := ⟨rfl, .rfl, rfl, rfl, id⟩

theorem Frame.setState (distinct : other ≠ process) (state : TaskState) :
    Frame other system (system.setState process state) := by
  refine ⟨rfl, .rfl, rfl, rfl, ?_⟩
  simp [distinct]

theorem Frame.lock (distinct : other ≠ process) (free : system.dev.mutex = none) :
    Frame other system { system with dev := { system.dev with mutex := some process } } := by
  refine ⟨rfl, ?_, rfl, rfl, id⟩
  simp [free, distinct.symm]

theorem Frame.unlock (distinct : other ≠ process) (released : system.dev.mutex ∈ [none, some process]) :
    Frame other system system.mutexUnlock := by
  refine ⟨rfl, ?_, rfl, rfl, id⟩
  simp only [List.mem_cons, List.not_mem_nil, or_false] at released
  cases released with
  | inl free => simp [free]
  | inr held => simp [held, distinct.symm]

theorem Frame.setReadQueue {queue : List (WaitEntry Process)}
    (same : queue.count (.declared other) = system.dev.rWait.count (.declared other)) :
    Frame other system (system.setReadQueue queue) := ⟨rfl, .rfl, same, rfl, id⟩

theorem Frame.setWriteQueue {queue : List (WaitEntry Process)}
    (same : queue.count (.declared other) = system.dev.wWait.count (.declared other)) :
    Frame other system (system.setWriteQueue queue) := ⟨rfl, .rfl, rfl, same, id⟩

theorem Frame.wakeUp (queue : List (WaitEntry Process)) : Frame other system (system.wakeUp queue) := by
  refine ⟨rfl, .rfl, rfl, rfl, ?_⟩
  intro running
  simp [running]

theorem Frame.signal (tasks : List Process) : Frame other system (system.signal tasks) := by
  refine ⟨rfl, .rfl, rfl, rfl, ?_⟩
  intro running
  simp [running]

theorem Frame.setData (len : UInt32) (mem : Memory) : Frame other system (system.setData len mem) :=
  ⟨rfl, .rfl, rfl, rfl, id⟩

theorem count_join (distinct : other ≠ process) (queue : List (WaitEntry Process)) :
    (WaitEntry.declared process :: queue).count (.declared other) = queue.count (.declared other) := by
  rw [List.count_cons_of_ne]
  simp [distinct.symm]

theorem count_leave (distinct : other ≠ process) (queue : List (WaitEntry Process)) :
    (queue.erase (.declared process)).count (.declared other) = queue.count (.declared other) := by
  rw [List.count_erase_of_ne]
  simp [distinct]

/-- The entries of a poll table are nobody's declared entry. -/
theorem count_polled {entries : List (WaitEntry Process)} (polled : ∀ entry ∈ entries, entry = .polled process)
    (queue : List (WaitEntry Process)) (other : Process) :
    (entries ++ queue).count (.declared other) = queue.count (.declared other) := by
  have absent : WaitEntry.declared other ∉ entries := by
    intro member
    exact absurd (polled _ member) (by simp)
  rw [List.count_append, List.count_eq_zero_of_not_mem absent, Nat.zero_add]

end Frames

/-! ## Frames of the statements -/

variable {system system' arrived : System Process} {process other : Process}
  {fault : Option (List UInt8)}

theorem read_frame {count : Nat} {nonblock : Bool} {pc pc' : ReadPc}
    (rule : ReadStep system process count nonblock fault pc arrived pc')
    (released : (Activity.read count nonblock pc).AtUnlock → system.dev.mutex ∈ [none, some process])
    (distinct : other ≠ process) : Frame other system arrived := by
  cases rule with
  | addWait => exact .setReadQueue (count_join distinct _)
  | setInterruptible => exact .setState distinct _
  | unlock => exact .unlock distinct (released trivial)
  | interrupted => exact .setState distinct _
  | lock free => exact .lock distinct free
  | copy => exact .setData _ _
  | wakeWriters => exact .wakeUp _
  | out => exact .unlock distinct (released trivial)
  | out2 => exact .setReadQueue (count_leave distinct _)
  | setRunning => exact .setState distinct _
  | _ => exact .refl _

theorem write_frame {buf : List UInt8} {nonblock : Bool} {pc pc' : WritePc}
    (rule : WriteStep system process buf nonblock pc arrived pc')
    (released : (Activity.write buf nonblock pc).AtUnlock → system.dev.mutex ∈ [none, some process])
    (distinct : other ≠ process) : Frame other system arrived := by
  cases rule with
  | lock free => exact .lock distinct free
  | addWait => exact .setWriteQueue (count_join distinct _)
  | setInterruptible => exact .setState distinct _
  | unlock => exact .unlock distinct (released trivial)
  | interrupted => exact .setState distinct _
  | relock free => exact .lock distinct free
  | fault => exact .setData _ _
  | copy => exact .setData _ _
  | wakeReaders => exact .wakeUp _
  | killFasync => exact .signal _
  | out => exact .unlock distinct (released trivial)
  | out2 => exact .setWriteQueue (count_leave distinct _)
  | setRunning => exact .setState distinct _
  | _ => exact .refl _

theorem poll_frame {table : Bool} {pc pc' : PollPc} (rule : PollStep system process pc arrived pc')
    (released : (Activity.poll table pc).AtUnlock → system.dev.mutex ∈ [none, some process])
    (distinct : other ≠ process) : Frame other system arrived := by
  cases rule with
  | lock free => exact .lock distinct free
  | pollWaitRead entries polled => exact .setReadQueue (count_polled polled _ _)
  | pollWaitWrite entries polled => exact .setWriteQueue (count_polled polled _ _)
  | test => exact .refl _
  | unlock => exact .unlock distinct (released trivial)

theorem ioctl_frame {cmd : Nat} {pc pc' : IoctlPc} (rule : IoctlStep system process cmd pc arrived pc')
    (released : (Activity.ioctl cmd pc).AtUnlock → system.dev.mutex ∈ [none, some process])
    (distinct : other ≠ process) : Frame other system arrived := by
  cases rule with
  | lock free => exact .lock distinct free
  | clear => exact .setData _ _
  | unlock => exact .unlock distinct (released trivial)
  | _ => exact .refl _

/-- A step that releases at most the mutex of its own process frames all others. -/
theorem step_frame (step : Step system process fault system')
    (released : (system.activity process).AtUnlock → system.dev.mutex ∈ [none, some process])
    (distinct : other ≠ process) : Frame other system system' := by
  have goto {arrived : System Process} {activity : Activity} (frame : Frame other system arrived) :
      Frame other system (arrived.goto process activity) := by
    obtain ⟨same, mutex, rWait, wWait, running⟩ := frame
    refine ⟨?_, mutex, rWait, wWait, running⟩
    simpa [distinct] using same
  cases step with
  | returns => exact goto (.refl _)
  | read here rule => exact goto (read_frame rule (here ▸ released) distinct)
  | write here rule => exact goto (write_frame rule (here ▸ released) distinct)
  | poll here rule => exact goto (poll_frame rule (here ▸ released) distinct)
  | ioctl here rule => exact goto (ioctl_frame rule (here ▸ released) distinct)

/-- What happens outside of the calls frames every process. -/
theorem External.frame (external : External system system') (other : Process) : Frame other system system' where
  activity := congrFun external.activity other
  mutex := by rw [external.mutex]
  rWait := external.rWait other
  wWait := external.wWait other
  running := external.running other

end KernelLearning.GlobalFifo
