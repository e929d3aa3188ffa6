import KernelLearning.Bytes.Queue
import KernelLearning.GlobalFifo.Steps
import KernelLearning.Interaction.Executions

/-!
# Calls executed one at a time

The device is a byte queue: whatever the calls that completed so far were given
and however they ended, the bytes the reads returned since the last `FIFO_CLEAR`,
followed by the bytes still in the queue, are the bytes the writes accepted since.
-/

namespace KernelLearning.GlobalFifo

open Bytes Interaction

variable {Process : Type} [DecidableEq Process]

/-! ## The length of the queue -/

def Device.Bounded (dev : Device Process) : Prop := dev.currentLen.toNat ≤ globalfifoSize

theorem toNat_globalfifoSize : (UInt32.ofNat globalfifoSize).toNat = globalfifoSize := by decide

theorem toNat_ofNat_of_le {count : Nat} (fits : count ≤ globalfifoSize) :
    (UInt32.ofNat count).toNat = count := by
  rw [UInt32.toNat_ofNat']
  exact Nat.mod_eq_of_lt (Nat.lt_of_le_of_lt fits (by decide))

theorem toNat_sub_ofNat {len : UInt32} {count : Nat} (enough : count ≤ len.toNat)
    (bounded : len.toNat ≤ globalfifoSize) : (len - UInt32.ofNat count).toNat = len.toNat - count := by
  have count_eq := toNat_ofNat_of_le (Nat.le_trans enough bounded)
  rw [UInt32.toNat_sub_of_le _ _ (UInt32.le_iff_toNat_le.mpr (by omega)), count_eq]

theorem toNat_free {len : UInt32} (bounded : len.toNat ≤ globalfifoSize) :
    (UInt32.ofNat globalfifoSize - len).toNat = globalfifoSize - len.toNat := by
  have size_eq := toNat_globalfifoSize
  rw [UInt32.toNat_sub_of_le _ _ (UInt32.le_iff_toNat_le.mpr (by omega)), size_eq]

theorem toNat_add_ofNat {len : UInt32} {count : Nat} (fits : len.toNat + count ≤ globalfifoSize) :
    (len + UInt32.ofNat count).toNat = len.toNat + count := by
  have count_eq : (UInt32.ofNat count).toNat = count := toNat_ofNat_of_le (by omega)
  have room : globalfifoSize < 2 ^ 32 := by decide
  rw [UInt32.toNat_add, count_eq]
  exact Nat.mod_eq_of_lt (by omega)

/-! ## The two copies -/

/-- Taking `count` bytes off the front and moving the rest there. -/
theorem contents_after_read {mem : Memory} {len count : Nat} (enough : count ≤ len)
    (bounded : len ≤ globalfifoSize) :
    mem.bytes.take len = mem.bytes.take count ++ (mem.memcpy count (len - count)).bytes.take (len - count) := by
  have inside : count + (len - count) ≤ mem.bytes.length := by
    rw [mem.length_bytes]
    omega
  rw [Memory.memcpy, take_copyForward inside, ← List.take_add, Nat.add_sub_cancel' enough]

/-- Appending bytes behind the queue. -/
theorem contents_after_write (mem : Memory) {len : Nat} {bytes : List UInt8}
    (fits : len + bytes.length ≤ globalfifoSize) :
    (mem.store len bytes).bytes.take (len + bytes.length) = mem.bytes.take len ++ bytes := by
  rw [Memory.store]
  exact take_overlay_end (by rw [mem.length_bytes]; exact fits)

theorem contents_after_fault {mem : Memory} {len : Nat} {bytes : List UInt8} :
    (mem.store len bytes).bytes.take len = mem.bytes.take len := by
  rw [Memory.store]
  exact take_overlay_below (Nat.le_refl len)

/-! ## What a call does to the queue -/

/-- Which call a process is in. -/
def Activity.call : Activity → Option Call
  | .idle => none
  | .read count nonblock _ => some (.read count nonblock)
  | .write buf nonblock _ => some (.write buf nonblock)
  | .poll table _ => some (.poll table)
  | .ioctl cmd _ => some (.ioctl cmd)

/-- The outcome that a call in progress will return, once it is settled. -/
def Activity.settled : Activity → Option Outcome
  | .read _ _ (.wakeWriters bytes) => some ⟨bytes.length, bytes⟩
  | .read _ _ (.out ret) | .read _ _ (.out2 ret) | .read _ _ (.setRunning ret) => some ⟨ret, []⟩
  | .read _ _ (.ret outcome) => some outcome
  | .write _ _ (.wakeReaders ret) | .write _ _ (.killFasync ret) | .write _ _ (.out ret)
  | .write _ _ (.out2 ret) | .write _ _ (.setRunning ret) | .write _ _ (.ret ret) => some ⟨ret, []⟩
  | .poll _ (.unlock mask) | .poll _ (.ret mask) => some ⟨mask, []⟩
  | .ioctl _ .unlock => some ⟨0, []⟩
  | .ioctl _ (.ret ret) => some ⟨ret, []⟩
  | _ => none

/-- What a completed call was to the queue. -/
def Call.use (call : Call) (outcome : Outcome) : Use UInt8 :=
  match call with
  | .read _ _ => if outcome.ret < 0 then .none else .deliver outcome.bytes
  | .write buf _ => if outcome.ret < 0 then .none else .accept (buf.take outcome.ret.toNat)
  | .poll _ => .none
  | .ioctl cmd => if cmd = fifoClear then .empty else .none

def Device.SameQueue (before after : Device Process) : Prop :=
  after.currentLen = before.currentLen ∧ after.contents = before.contents

/-- What a call returns when it does not fail counts the bytes. -/
def Call.Counts (call : Call) (outcome : Outcome) : Prop :=
  match call with
  | .read count _ => outcome.ret = outcome.bytes.length ∧ outcome.ret ≤ count
  | .write buf _ => outcome.ret ≤ buf.length
  | _ => True

/-- A call that started on `before` and has settled on `outcome` leaves `after`. -/
structure Settled (call : Call) (outcome : Outcome) (before after : Device Process) : Prop where
  moves : (call.use outcome).Moves before.contents after.contents
  unchanged : outcome.ret < 0 → before.SameQueue after
  counts : 0 ≤ outcome.ret → call.Counts outcome

/-- The statements that only `FIFO_CLEAR` reaches. -/
def Activity.ClearsOnly : Activity → Prop
  | .ioctl cmd .lock | .ioctl cmd .clear | .ioctl cmd .unlock => cmd = fifoClear
  | _ => True

/-- How far a call that started on `before` has come. -/
structure Progress (before : Device Process) (call : Call) (dev : Device Process) (activity : Activity) :
    Prop where
  inCall : activity.call = some call
  clearsOnly : activity.ClearsOnly
  queue : match activity.settled with
    | none => before.SameQueue dev
    | some outcome => Settled call outcome before dev

omit [DecidableEq Process] in
theorem Device.SameQueue.refl (dev : Device Process) : dev.SameQueue dev := ⟨rfl, rfl⟩

omit [DecidableEq Process] in
/-- An outcome that is no use of the queue leaves it as it was. -/
theorem settled_of_sameQueue {call : Call} {outcome : Outcome} {before after : Device Process}
    (same : before.SameQueue after) (noUse : call.use outcome = .none) :
    Settled call outcome before after := by
  refine ⟨?_, fun _ => same, fun nonneg => ?_⟩
  · rw [noUse]
    exact same.2
  · -- a read or a write that does not fail is a use
    cases call with
    | read count nonblock => simp [Call.use, Int.not_lt.mpr nonneg] at noUse
    | write buf nonblock => simp [Call.use, Int.not_lt.mpr nonneg] at noUse
    | poll table => trivial
    | ioctl cmd => trivial

theorem use_read_negative {count : Nat} {nonblock : Bool} {outcome : Outcome} (negative : outcome.ret < 0) :
    (Call.read count nonblock).use outcome = .none := by
  simp [Call.use, negative]

theorem use_write_negative {buf : List UInt8} {nonblock : Bool} {outcome : Outcome}
    (negative : outcome.ret < 0) : (Call.write buf nonblock).use outcome = .none := by
  simp [Call.use, negative]

variable {system system' : System Process} {process : Process} {before : Device Process}
  {fault : Option (List UInt8)}

omit [DecidableEq Process] in
/-- A statement that leaves the queue and the settled outcome alone. -/
theorem Progress.keep {call : Call} {dev dev' : Device Process} {activity activity' : Activity}
    (progress : Progress before call dev activity) (inCall : activity'.call = activity.call)
    (clearsOnly : activity'.ClearsOnly) (settled : activity'.settled = activity.settled)
    (len : dev'.currentLen = dev.currentLen) (mem : dev'.mem = dev.mem) : Progress before call dev' activity' := by
  have queue := progress.queue
  have contents : dev'.contents = dev.contents := by rw [Device.contents, Device.contents, len, mem]
  refine ⟨inCall.trans progress.inCall, clearsOnly, ?_⟩
  rw [settled]
  cases outcome : activity.settled with
  | none =>
    rw [outcome] at queue
    exact ⟨len.trans queue.1, contents.trans queue.2⟩
  | some outcome =>
    simp only [outcome] at queue
    refine ⟨?_, fun negative => ?_, queue.counts⟩
    · rw [contents]
      exact queue.moves
    · exact ⟨len.trans (queue.unchanged negative).1, contents.trans (queue.unchanged negative).2⟩

omit [DecidableEq Process] in
/-- A statement that settles on an outcome without having used the queue. -/
theorem Progress.settle {call : Call} {dev : Device Process} {activity activity' : Activity}
    {outcome : Outcome} (progress : Progress before call dev activity)
    (inCall : activity'.call = activity.call) (clearsOnly : activity'.ClearsOnly)
    (unsettled : activity.settled = none) (settled : activity'.settled = some outcome)
    (noUse : call.use outcome = .none) : Progress before call dev activity' := by
  have queue := progress.queue
  rw [unsettled] at queue
  refine ⟨inCall.trans progress.inCall, clearsOnly, ?_⟩
  rw [settled]
  exact settled_of_sameQueue queue noUse

/-! ## One statement -/

variable {arrived : System Process}

theorem read_progress {count : Nat} {nonblock : Bool} {pc pc' : ReadPc} (bounded : system.dev.Bounded)
    (progress : Progress before (.read count nonblock) system.dev (.read count nonblock pc))
    (rule : ReadStep system process count nonblock fault pc arrived pc') :
    Progress before (.read count nonblock) arrived.dev (.read count nonblock pc') := by
  cases rule with
  | again | restart | fault => exact progress.settle rfl trivial rfl rfl (use_read_negative (by decide))
  | copy taking taking_eq copied =>
    have enough : taking ≤ system.dev.currentLen.toNat := by omega
    have same : before.SameQueue system.dev := progress.queue
    -- the bytes that were in the queue are those taken and those left
    have moved : before.contents = system.dev.mem.bytes.take taking ++
        (system.setData (system.dev.currentLen - UInt32.ofNat taking)
          (system.dev.mem.memcpy taking (system.dev.currentLen - UInt32.ofNat taking).toNat)).dev.contents := by
      rw [← same.2]
      simp only [Device.contents, System.setData, toNat_sub_ofNat enough bounded]
      exact contents_after_read enough bounded
    have length : (system.dev.mem.bytes.take taking).length = taking := by
      have whole := system.dev.mem.length_bytes
      simp only [Device.Bounded] at bounded
      rw [List.length_take]
      omega
    refine ⟨rfl, trivial, ?_, fun negative => absurd negative (by simp), fun _ => ⟨rfl, ?_⟩⟩
    · rw [Call.use, if_neg (by simp)]
      exact moved
    · simp only [length]
      omega
  | _ => exact progress.keep rfl trivial rfl rfl rfl

theorem write_progress {buf : List UInt8} {nonblock : Bool} {pc pc' : WritePc} (bounded : system.dev.Bounded)
    (progress : Progress before (.write buf nonblock) system.dev (.write buf nonblock pc))
    (rule : WriteStep system process buf nonblock pc arrived pc') :
    Progress before (.write buf nonblock) arrived.dev (.write buf nonblock pc') := by
  cases rule with
  | again | restart => exact progress.settle rfl trivial rfl rfl (use_write_negative (by decide))
  | fault left =>
    -- copy_from_user has written behind the queue only
    have same : before.SameQueue system.dev := progress.queue
    refine ⟨rfl, trivial, ?_⟩
    exact settled_of_sameQueue ⟨same.1, contents_after_fault.trans same.2⟩ (use_write_negative (by decide))
  | nothing =>
    have same : before.SameQueue system.dev := progress.queue
    refine ⟨rfl, trivial, ?_, fun _ => same, fun _ => Int.natCast_nonneg _⟩
    simpa [Call.use, Use.Moves] using same.2
  | copy accepting accepting_eq =>
    have free := toNat_free bounded
    have within : system.dev.currentLen.toNat + accepting ≤ globalfifoSize := by
      simp only [Device.Bounded] at bounded
      omega
    have length : (buf.take accepting).length = accepting := by
      rw [List.length_take]
      omega
    have same : before.SameQueue system.dev := progress.queue
    have appended : (system.setData (system.dev.currentLen + UInt32.ofNat accepting)
        (system.dev.mem.store system.dev.currentLen.toNat (buf.take accepting))).dev.contents =
          before.contents ++ buf.take accepting := by
      rw [← same.2]
      simp only [Device.contents, System.setData, toNat_add_ofNat within]
      rw [← length] at within
      have stored := contents_after_write system.dev.mem within
      rw [length] at stored
      exact stored
    refine ⟨rfl, trivial, ?_, fun negative => absurd negative (by simp), fun _ => ?_⟩
    · rw [Call.use, if_neg (by simp), Int.toNat_natCast]
      exact appended
    · simp only [Call.Counts]
      omega
  | _ => exact progress.keep rfl trivial rfl rfl rfl

omit [DecidableEq Process] in
theorem poll_progress {table : Bool} {pc pc' : PollPc}
    (progress : Progress before (.poll table) system.dev (.poll table pc))
    (rule : PollStep system process pc arrived pc') :
    Progress before (.poll table) arrived.dev (.poll table pc') := by
  cases rule with
  | test mask => exact progress.settle rfl trivial rfl rfl rfl
  | _ => exact progress.keep rfl trivial rfl rfl rfl

omit [DecidableEq Process] in
theorem ioctl_progress {cmd : Nat} {pc pc' : IoctlPc}
    (progress : Progress before (.ioctl cmd) system.dev (.ioctl cmd pc))
    (rule : IoctlStep system process cmd pc arrived pc') :
    Progress before (.ioctl cmd) arrived.dev (.ioctl cmd pc') := by
  cases rule with
  | clearing clearing => exact progress.keep rfl clearing rfl rfl rfl
  | unknown unknown => exact progress.settle rfl trivial rfl rfl (if_neg unknown)
  | lock => exact progress.keep rfl progress.clearsOnly rfl rfl rfl
  | clear =>
    have clearing : cmd = fifoClear := progress.clearsOnly
    refine ⟨rfl, clearing, ?_, fun negative => absurd negative (by simp), fun _ => trivial⟩
    rw [Call.use, if_pos clearing]
    simp [Use.Moves, Device.contents]
  | unlock => exact progress.keep rfl trivial rfl rfl rfl

/-- A statement brings the call further or ends it. -/
theorem step_progress {call : Call} (bounded : system.dev.Bounded)
    (progress : Progress before call system.dev (system.activity process))
    (step : Step system process fault system') :
    system'.activity process = .idle ∨ Progress before call system'.dev (system'.activity process) := by
  cases step with
  | returns => simp
  | read here rule =>
    rw [here] at progress
    obtain rfl : _ = call := Option.some.inj progress.inCall
    right
    simpa using read_progress bounded progress rule
  | write here rule =>
    rw [here] at progress
    obtain rfl : _ = call := Option.some.inj progress.inCall
    right
    simpa using write_progress bounded progress rule
  | poll here rule =>
    rw [here] at progress
    obtain rfl : _ = call := Option.some.inj progress.inCall
    right
    simpa using poll_progress progress rule
  | ioctl here rule =>
    rw [here] at progress
    obtain rfl : _ = call := Option.some.inj progress.inCall
    right
    simpa using ioctl_progress progress rule

/-- `current_len` stays within the array. -/
theorem step_bounded (bounded : system.dev.Bounded) (step : Step system process fault system') :
    system'.dev.Bounded := by
  cases step with
  | returns => exact bounded
  | read here rule =>
    cases rule with
    | copy taking taking_eq copied =>
      have enough : taking ≤ system.dev.currentLen.toNat := by omega
      simp only [Device.Bounded, System.goto, System.setData, toNat_sub_ofNat enough bounded] at bounded ⊢
      omega
    | _ => exact bounded
  | write here rule =>
    cases rule with
    | copy accepting accepting_eq =>
      have free := toNat_free bounded
      have within : system.dev.currentLen.toNat + accepting ≤ globalfifoSize := by
        simp only [Device.Bounded] at bounded
        omega
      simpa only [Device.Bounded, System.goto, System.setData, toNat_add_ofNat within] using within
    | _ => exact bounded
  | poll here rule => cases rule <;> exact bounded
  | ioctl here rule =>
    cases rule with
    | clear => simp [Device.Bounded]
    | _ => exact bounded

/-- What comes from outside does not touch the queue. -/
theorem next_bounded {event : Event Process} (bounded : system.dev.Bounded)
    (taken : system.next event = some system') : system'.dev.Bounded := by
  cases next_cases taken with
  | call call idle => exact bounded
  | step step => exact step_bounded bounded step
  | external external =>
    rw [Device.Bounded, external.len]
    exact bounded

/-! ## Whole calls -/

/-- What no call does: the events that come from outside. -/
def Event.Outside : Event Process → Prop
  | .call _ _ | .step _ _ => False
  | .signal _ | .handled _ | .pollEnd _ => True

/-- What may happen while `process` alone is in a call. -/
def Event.Alone (process : Process) (event : Event Process) : Prop :=
  event.Outside ∨ ∃ fault, event = .step process fault

/-- A call that has returned, with the device before and after it. -/
structure Completed (Process : Type) where
  call : Call
  outcome : Outcome
  before : Device Process
  after : Device Process

def Completed.use (completed : Completed Process) : Use UInt8 := completed.call.use completed.outcome

/-- Calls executed one at a time from `init` on: the systems passed through, the calls that
completed, and the system after them. -/
inductive OneAtATime (init : System Process) :
    List (System Process) → List (Completed Process) → System Process → Prop where
  | start : OneAtATime init [init] [] init
  | outside {visited completed system event last} (earlier : OneAtATime init visited completed system)
      (outside : event.Outside) (taken : system.next event = some last) :
      OneAtATime init (visited ++ [last]) completed last
  | call {visited completed system process call begun past returning outcome last}
      (earlier : OneAtATime init visited completed system)
      (begins : system.next (.call process call) = some begun)
      (alone : Execution System.next begun past returning)
      (own : Throughout (fun _ event => event.Alone process) past)
      (returns : (returning.activity process).outcome = some outcome)
      (ends : returning.next (.step process none) = some last) :
      OneAtATime init (visited ++ past.map Prod.fst ++ [returning, last])
        (completed ++ [⟨call, outcome, system.dev, last.dev⟩]) last

omit [DecidableEq Process] in
theorem settled_of_outcome {activity : Activity} {outcome : Outcome}
    (returning : activity.outcome = some outcome) : activity.settled = some outcome := by
  cases activity with
  | idle => simp [Activity.outcome] at returning
  | read count nonblock pc => cases pc <;> simp_all [Activity.outcome, Activity.settled]
  | write buf nonblock pc => cases pc <;> simp_all [Activity.outcome, Activity.settled]
  | poll table pc => cases pc <;> simp_all [Activity.outcome, Activity.settled]
  | ioctl cmd pc => cases pc <;> simp_all [Activity.outcome, Activity.settled]

/-- What comes from outside changes no call and no byte. -/
theorem outside_keeps {event : Event Process} (outside : event.Outside)
    (taken : system.next event = some system') :
    system'.activity = system.activity ∧ system'.dev.currentLen = system.dev.currentLen ∧
      system'.dev.mem = system.dev.mem := by
  cases next_cases taken with
  | call call idle => exact absurd outside id
  | step step => exact absurd outside id
  | external external => exact ⟨external.activity, external.len, external.mem⟩

omit [DecidableEq Process] in
theorem contents_of_same {dev dev' : Device Process} (len : dev'.currentLen = dev.currentLen)
    (mem : dev'.mem = dev.mem) : dev'.contents = dev.contents := by
  rw [Device.contents, Device.contents, len, mem]

/-- A call that begins has not touched the queue. -/
theorem begin_progress {call : Call} {begun : System Process}
    (begins : system.next (.call process call) = some begun) :
    begun.dev = system.dev ∧ Progress system.dev call begun.dev (begun.activity process) := by
  simp only [System.next] at begins
  split at begins
  · obtain rfl := Option.some.inj begins
    refine ⟨rfl, ?_⟩
    simp only [System.goto, Function.update_self]
    cases call with
    | read count nonblock => exact ⟨rfl, trivial, .refl _⟩
    | write buf nonblock => exact ⟨rfl, trivial, .refl _⟩
    | poll table => exact ⟨rfl, trivial, .refl _⟩
    | ioctl cmd => exact ⟨rfl, trivial, .refl _⟩
  · simp at begins

/-- While a process is served alone, its call progresses. -/
theorem alone_progress {call : Call} {begun returning : System Process}
    {past : List (System Process × Event Process)} (bounded : begun.dev.Bounded)
    (begins : Progress before call begun.dev (begun.activity process))
    (alone : Execution System.next begun past returning)
    (own : Throughout (fun _ event => event.Alone process) past) :
    returning.activity process = .idle ∨
      Progress before call returning.dev (returning.activity process) := by
  let holds (state : System Process) : Prop := state.dev.Bounded ∧
    (state.activity process = .idle ∨ Progress before call state.dev (state.activity process))
  have kept : ∀ state event state', holds state → event.Alone process →
      state.next event = some state' → holds state' := by
    intro state event state' before alone taken
    obtain ⟨bounded, progress⟩ := before
    refine ⟨next_bounded bounded taken, ?_⟩
    cases alone with
    | inl outside =>
      -- what comes from outside leaves the call and the queue alone
      obtain ⟨activity, len, mem⟩ := outside_keeps outside taken
      rw [activity]
      refine progress.imp_right fun progress => ?_
      exact progress.keep rfl progress.clearsOnly rfl len mem
    | inr own =>
      obtain ⟨fault, rfl⟩ := own
      cases progress with
      | inl idle => simp [System.next, idle] at taken
      | inr progress => exact step_progress bounded progress (step_of_next taken)
  exact (alone.invariant holds _ ⟨bounded, .inr begins⟩ kept own).2

/-- When a call is about to return, its next statement is the return. -/
theorem next_of_outcome {outcome : Outcome} (returning : (system.activity process).outcome = some outcome) :
    system.next (.step process fault) = some (system.goto process .idle) := by
  cases here : system.activity process with
  | idle => simp [here, Activity.outcome] at returning
  | read count nonblock pc =>
    cases pc <;> simp_all [Activity.outcome, System.next, System.globalfifoRead]
  | write buf nonblock pc =>
    cases pc <;> simp_all [Activity.outcome, System.next, System.globalfifoWrite]
  | poll table pc => cases pc <;> simp_all [Activity.outcome, System.next, System.globalfifoPoll]
  | ioctl cmd pc => cases pc <;> simp_all [Activity.outcome, System.next, System.globalfifoIoctl]

/-- A call executed alone has had exactly the effect its outcome says. -/
theorem call_settled {call : Call} {outcome : Outcome} {begun returning last : System Process}
    {past : List (System Process × Event Process)} (bounded : system.dev.Bounded)
    (begins : system.next (.call process call) = some begun)
    (alone : Execution System.next begun past returning)
    (own : Throughout (fun _ event => event.Alone process) past)
    (returns : (returning.activity process).outcome = some outcome)
    (ends : returning.next (.step process none) = some last) :
    Settled call outcome system.dev last.dev := by
  obtain ⟨sameDev, progress⟩ := begin_progress begins
  have reached := alone_progress (by rw [sameDev]; exact bounded) progress alone own
  cases reached with
  | inl idle => simp [idle, Activity.outcome] at returns
  | inr progress =>
    have queue := progress.queue
    rw [settled_of_outcome returns] at queue
    rw [next_of_outcome returns] at ends
    obtain rfl := Option.some.inj ends
    exact queue

/-- What holds after any calls that completed one at a time. -/
theorem calls_invariant {visited : List (System Process)} {completed : List (Completed Process)}
    {system : System Process} (calls : OneAtATime .probed visited completed system) :
    (∀ state ∈ visited, state.dev.Bounded) ∧ system.dev.Bounded ∧
      Conserves (completed.map Completed.use) system.dev.contents ∧
      ∀ done ∈ completed, Settled done.call done.outcome done.before done.after := by
  induction calls with
  | start =>
    have empty : (System.probed : System Process).dev.Bounded := by simp [System.probed, Device.Bounded]
    have contents : (System.probed : System Process).dev.contents = [] := by
      simp [System.probed, Device.contents]
    refine ⟨by simpa using empty, empty, ?_, by simp⟩
    rw [contents]
    exact conserves_nil
  | outside earlier outside taken inductionHypothesis =>
    obtain ⟨within, bounded, conserves, settled⟩ := inductionHypothesis
    obtain ⟨_, len, mem⟩ := outside_keeps outside taken
    have bounded' := next_bounded bounded taken
    refine ⟨?_, bounded', ?_, settled⟩
    · simpa [or_imp, forall_and] using ⟨within, bounded'⟩
    · rw [contents_of_same len mem]
      exact conserves
  | @call visited completed system process call begun past returning outcome last earlier begins alone own
      returns ends inductionHypothesis =>
    obtain ⟨within, bounded, conserves, settled⟩ := inductionHypothesis
    have begunBounded := next_bounded bounded begins
    have returningBounded := alone.always (·.dev.Bounded) begunBounded fun _ _ _ => next_bounded
    have pastBounded := alone.always_before (·.dev.Bounded) begunBounded fun _ _ _ => next_bounded
    have lastBounded := next_bounded returningBounded ends
    have now := call_settled bounded begins alone own returns ends
    refine ⟨?_, lastBounded, ?_, ?_⟩
    · intro state member
      simp only [List.mem_append, List.mem_map, List.mem_cons, List.not_mem_nil, or_false] at member
      -- before the call, during it, when it is about to return, and after it
      obtain (before | ⟨taken, during, rfl⟩) | rfl | rfl := member
      · exact within state before
      · exact pastBounded taken during
      · exact returningBounded
      · exact lastBounded
    · rw [List.map_append]
      exact conserves.append now.moves
    · simpa [or_imp, forall_and] using ⟨settled, now⟩

/-- The device is a byte queue.  In every system passed through, the queue is within its array.
After any calls that completed one at a time, the bytes returned by the reads since the last
`FIFO_CLEAR`, followed by the bytes in the queue, are the bytes accepted by the writes since; what
a call returned counts its bytes; and a call that failed left the queue as it was. -/
theorem globalfifo_is_byte_queue {visited : List (System Process)} {completed : List (Completed Process)}
    {system : System Process} (calls : OneAtATime .probed visited completed system) :
    (∀ state ∈ visited, state.dev.currentLen.toNat ≤ globalfifoSize) ∧
      Conserves (completed.map Completed.use) system.dev.contents ∧
      ∀ done ∈ completed, (0 ≤ done.outcome.ret → done.call.Counts done.outcome) ∧
        (done.outcome.ret < 0 → done.before.SameQueue done.after) := by
  obtain ⟨within, _, conserves, settled⟩ := calls_invariant calls
  refine ⟨within, conserves, ?_⟩
  intro done member
  exact ⟨(settled done member).counts, (settled done member).unchanged⟩

/-- One more call that can be performed alone. -/
theorem OneAtATime.performs {visited : List (System Process)} {completed : List (Completed Process)}
    {begun returning : System Process} (calls : OneAtATime .probed visited completed system) (call : Call)
    {outcome : Outcome} {events : List (Event Process)} (begins : system.next (.call process call) = some begun)
    (own : ∀ event ∈ events, event.Alone process) (performed : perform System.next begun events = some returning)
    (returns : (returning.activity process).outcome = some outcome) :
    ∃ visited', OneAtATime .probed visited'
      (completed ++ [⟨call, outcome, system.dev, returning.dev⟩]) (returning.goto process .idle) := by
  obtain ⟨past, events_eq, alone⟩ := execution_of_perform performed
  have ownPast : Throughout (fun _ event => event.Alone process) past := by
    intro taken member
    exact own taken.2 (events_eq ▸ List.mem_map_of_mem member)
  exact ⟨_, calls.call begins alone ownPast returns (next_of_outcome returns)⟩

/-- A write of two bytes to the probed device, and a read of one of them. -/
theorem globalfifo_is_byte_queue_writeThenRead : ∃ visited completed, ∃ system : System Bool,
    OneAtATime .probed visited completed system ∧
      completed.map Completed.use = [.accept [7, 8], .deliver [7]] ∧ system.dev.contents = [8] := by
  have own (process : Bool) (count : Nat) : ∀ event ∈ List.replicate count (Event.step process none),
      event.Alone process := by
    intro event member
    exact .inr ⟨none, List.eq_of_mem_replicate member⟩
  obtain ⟨state, written, stored, begun, begins, returning, performed, mem, returns⟩ :
      ∃ state : System Bool, perform System.next ((System.probed : System Bool).goto true
          (Call.write [7, 8] true).entry) (List.replicate 9 (.step true none)) = some state ∧
        (state.activity true).outcome = some ⟨2, []⟩ ∧
        ∃ begun, (state.goto true .idle).next (.call false (.read 1 true)) = some begun ∧
        ∃ returning : System Bool, perform System.next begun (List.replicate 4 (.step false none)) = some returning ∧
        ∃ mem : Memory, (returning.activity false).outcome =
          some ⟨(mem.bytes.take 1).length, mem.bytes.take 1⟩ := ⟨_, rfl, rfl, _, rfl, _, rfl, _, rfl⟩
  obtain ⟨byte, one⟩ : ∃ byte, mem.bytes.take 1 = [byte] := by
    apply List.length_eq_one_iff.mp
    rw [List.length_take, mem.length_bytes]
    rfl
  rw [one] at returns
  obtain ⟨_, first⟩ := OneAtATime.start.performs (.write [7, 8] true) rfl (own true 9) written stored
  obtain ⟨_, calls⟩ := first.performs (.read 1 true) begins (own false 4) performed returns
  have queue := (globalfifo_is_byte_queue calls).2.1
  -- what was delivered and what is left are the bytes that were accepted
  have bytes : [byte] ++ (returning.goto false .idle).dev.contents = [7, 8] := queue
  obtain ⟨rfl, left⟩ := List.cons.inj bytes
  exact ⟨_, _, _, calls, rfl, left⟩

end KernelLearning.GlobalFifo
