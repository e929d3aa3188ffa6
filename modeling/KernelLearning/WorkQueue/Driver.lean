/-!
# The workqueue driver

`wq_demo_probe`, `timer_isr`, `wq_isr` and `wq_demo_remove`, statement by statement,
with the timer and the work item of the one `pdata`.  `timer_isr` runs on another
CPU than `wq_demo_remove`, so their statements interleave; a timer handler does not
run twice at a time, and neither does a work item.
-/

namespace KernelLearning.WorkQueue

/-- The next statement of `wq_demo_probe`. -/
inductive ProbePlace where
  | kzalloc
  | initWork
  | timerSetup
  | addTimer
  | setDrvdata
  | returned
  /-- `-ENOMEM` -/
  | failed
  deriving DecidableEq

/-- The next statement of `timer_isr`. -/
inductive TimerPlace where
  | scheduleWork
  | setExpires
  | addTimer
  deriving DecidableEq

/-- The next statement of `wq_demo_remove`. -/
inductive RemovePlace where
  | getDrvdata
  | delTimer
  | kfree
  | returned
  deriving DecidableEq

structure System where
  probe : ProbePlace
  /-- The timer is on a list of the kernel. -/
  armed : Bool
  /-- `none` while `timer_isr` does not run. -/
  timerIsr : Option TimerPlace
  /-- The work item is on the queue. -/
  queued : Bool
  /-- `wq_isr` runs. -/
  wqIsr : Bool
  remove : RemovePlace

def System.init : System where
  probe := .kzalloc
  armed := false
  timerIsr := none
  queued := false
  wqIsr := false
  remove := .getDrvdata

inductive Event where
  /-- The next statement of `wq_demo_probe`, with what `kzalloc` answers. -/
  | probe (allocated : Bool)
  | expires
  | timerIsr
  /-- A worker takes the work item off the queue and calls `wq_isr`. -/
  | work
  | worked
  | remove
  deriving DecidableEq

namespace System

def wqDemoProbe (system : System) (allocated : Bool) : Option System :=
  match system.probe with
  | .kzalloc => some { system with probe := if allocated then .initWork else .failed }
  | .initWork => some { system with probe := .timerSetup }
  | .timerSetup => some { system with probe := .addTimer }
  | .addTimer => some { system with armed := true, probe := .setDrvdata }
  | .setDrvdata => some { system with probe := .returned }
  | .returned | .failed => none

/-- The kernel takes a timer that expires off its list before it calls `timer_isr`. -/
def expire (system : System) : Option System :=
  if system.armed = true ∧ system.timerIsr = none then
    some { system with armed := false, timerIsr := some .scheduleWork }
  else none

/-- `schedule_work` of a work item that is queued does nothing. -/
def timerIsrStep (system : System) : Option System :=
  match system.timerIsr with
  | none => none
  | some .scheduleWork => some { system with queued := true, timerIsr := some .setExpires }
  | some .setExpires => some { system with timerIsr := some .addTimer }
  | some .addTimer => some { system with armed := true, timerIsr := none }

/-- `wq_isr` prints and does not use its argument. -/
def startWork (system : System) : Option System :=
  if system.queued = true ∧ system.wqIsr = false then some { system with queued := false, wqIsr := true } else none

/-- `del_timer` waits for nobody, and `kfree` is next. -/
def wqDemoRemove (system : System) : Option System :=
  if system.probe = .returned then
    match system.remove with
    | .getDrvdata => some { system with remove := .delTimer }
    | .delTimer => some { system with armed := false, remove := .kfree }
    | .kfree => some { system with remove := .returned }
    | .returned => none
  else none

end System

def step (system : System) : Event → Option System
  | .probe allocated => system.wqDemoProbe allocated
  | .expires => system.expire
  | .timerIsr => system.timerIsrStep
  | .work => system.startWork
  | .worked => if system.wqIsr = true then some { system with wqIsr := false } else none
  | .remove => system.wqDemoRemove

end KernelLearning.WorkQueue
