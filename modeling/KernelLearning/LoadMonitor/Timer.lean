import KernelLearning.Interaction.Executions
import Mathlib.Algebra.Ring.Int.Defs
import Mathlib.Data.List.Chain

/-!
# monitor_handler

The handler runs when the timer has expired, at a time of the system's choice; the clock never goes
back.  `hrtimer_forward_now` makes the timer expire again within one period.
-/

namespace KernelLearning.LoadMonitor

open Interaction

/-! ## The handler -/

def NSEC_PER_MSEC : Int := 1000000

def msToKtime (ms : Int) : Int := ms * NSEC_PER_MSEC

/-- Stored in a `u64`. -/
def ktimeToMs (kt : Int) : UInt64 := UInt64.ofInt (kt.tdiv NSEC_PER_MSEC)

/-- The times are in nanoseconds; the dumps are those that have been printed, the latest first. -/
structure Monitor where
  last : Int
  expires : Int
  clock : Int
  dumps : List Int
deriving DecidableEq

/-- What the clock shows in a run of the handler: in the comparison, at the dump and at the end; and when the timer
will expire. -/
structure Readings where
  compared : Int
  dumped : Int
  ended : Int
  expires : Int

def checkLoad (readings : Readings) (monitor : Monitor) : Monitor :=
  let ms := ktimeToMs (readings.compared - monitor.last)
  if ms < 10 * 1000 then monitor
  else { monitor with last := readings.dumped, dumps := readings.dumped :: monitor.dumps }

/-- The clock goes on, and the timer is set to a time that is not past, and at most one period ahead. -/
def Readings.possible (readings : Readings) (monitor : Monitor) : Prop :=
  monitor.clock ≤ readings.compared ∧ monitor.expires ≤ readings.compared ∧ readings.compared ≤ readings.dumped ∧
    readings.dumped ≤ readings.ended ∧ readings.ended < 2 ^ 63 ∧ readings.ended < readings.expires ∧
    readings.expires ≤ readings.ended + msToKtime 10

instance (readings : Readings) (monitor : Monitor) : Decidable (readings.possible monitor) :=
  inferInstanceAs (Decidable (_ ∧ _))

def monitorHandler (monitor : Monitor) (readings : Readings) : Option Monitor :=
  if readings.possible monitor then
    some { checkLoad readings monitor with expires := readings.expires, clock := readings.ended }
  else none

/-- `start_timer` at this time. -/
def startTimer (now : Int) : Monitor where
  last := 0
  expires := now + msToKtime 10
  clock := now
  dumps := []

/-! ## Between two dumps -/

def period : Int := msToKtime (10 * 1000)

theorem ktimeToMs_lt_iff {kt : Int} (positive : 0 ≤ kt) (small : kt < 2 ^ 63) :
    ktimeToMs kt < 10 * 1000 ↔ kt < period := by
  have quotient : kt.tdiv NSEC_PER_MSEC = kt / 1000000 := Int.tdiv_eq_ediv_of_nonneg positive
  have exact : (ktimeToMs kt).toNat = (kt / 1000000).toNat := by
    rw [ktimeToMs, quotient, UInt64.ofInt, UInt64.toNat_ofNat']
    omega
  rw [UInt64.lt_iff_toNat_lt, exact, show period = 10000000000 from rfl,
    show (10 * 1000 : UInt64).toNat = 10000 from rfl]
  omega

/-- A run of the handler dumps exactly if the period is over. -/
theorem monitorHandler_cases {monitor monitor' : Monitor} {readings : Readings}
    (ran : monitorHandler monitor readings = some monitor') (started : 0 ≤ monitor.last)
    (behind : monitor.last ≤ monitor.clock) :
    readings.possible monitor ∧
      ((readings.compared - monitor.last < period ∧
          monitor' = { monitor with expires := readings.expires, clock := readings.ended }) ∨
        (period ≤ readings.compared - monitor.last ∧
          monitor' = ⟨readings.dumped, readings.expires, readings.ended, readings.dumped :: monitor.dumps⟩)) := by
  obtain ⟨possible, same⟩ := Option.ite_none_right_eq_some.mp ran
  have same := Option.some.inj same
  have bounds := possible
  obtain ⟨on, _, later, goesOn, small, _⟩ := bounds
  have elapsed := ktimeToMs_lt_iff (by omega : 0 ≤ readings.compared - monitor.last) (by omega)
  refine ⟨possible, ?_⟩
  rw [← same, checkLoad]
  by_cases early : readings.compared - monitor.last < period
  · exact .inl ⟨early, by simp only [if_pos (elapsed.mpr early)]⟩
  · exact .inr ⟨Int.not_lt.mp early, by simp only [if_neg (mt elapsed.mp early)]⟩

/-! ## Every run -/

/-- The dumps are apart, also from the zero that `last` has at first. -/
structure Kept (monitor : Monitor) : Prop where
  started : 0 ≤ monitor.last
  behind : monitor.last ≤ monitor.clock
  latest : ∃ older, monitor.dumps ++ [0] = monitor.last :: older
  apart : (monitor.dumps ++ [0]).IsChain fun later earlier => earlier + period ≤ later

theorem Kept.step {monitor monitor' : Monitor} {readings : Readings} (kept : Kept monitor)
    (ran : monitorHandler monitor readings = some monitor') : Kept monitor' := by
  obtain ⟨started, behind, ⟨older, latest⟩, apart⟩ := kept
  obtain ⟨⟨on, _, later, goesOn, _⟩, ⟨_, same⟩ | ⟨due, same⟩⟩ := monitorHandler_cases ran started behind
  · rw [same]
    refine ⟨started, ?_, ⟨older, latest⟩, apart⟩
    change monitor.last ≤ readings.ended
    omega
  · rw [same]
    rw [latest] at apart
    refine ⟨?_, goesOn, ⟨monitor.dumps ++ [0], rfl⟩, ?_⟩
    · change 0 ≤ readings.dumped
      omega
    · rw [List.cons_append, latest, List.isChain_cons_cons]
      exact ⟨by omega, apart⟩

/-- The handler begins soon after the timer has expired, and does not take long. -/
def Prompt (latency duration : Nat) (monitor : Monitor) (readings : Readings) : Prop :=
  readings.compared ≤ monitor.expires + latency ∧ readings.ended ≤ readings.compared + duration

def slack (latency duration : Nat) : Int := msToKtime 10 + latency + 2 * duration

/-- The first dump is due one period after the machine has started, or at once if that is past. -/
def origin (loaded : Int) : Int := max 0 (loaded - period)

/-- No dump is late, nor is the next one by now. -/
structure OnTime (loaded : Int) (latency duration : Nat) (monitor : Monitor) : Prop where
  kept : Kept monitor
  timer : monitor.expires ≤ monitor.clock + msToKtime 10
  latest : ∃ latest older, monitor.dumps ++ [origin loaded] = latest :: older ∧ monitor.last ≤ latest ∧
    monitor.clock ≤ latest + period + duration
  close : (monitor.dumps ++ [origin loaded]).IsChain fun later earlier =>
    later ≤ earlier + period + slack latency duration

theorem OnTime.step {loaded : Int} {latency duration : Nat} {monitor monitor' : Monitor} {readings : Readings}
    (onTime : OnTime loaded latency duration monitor) (prompt : Prompt latency duration monitor readings)
    (ran : monitorHandler monitor readings = some monitor') : OnTime loaded latency duration monitor' := by
  have kept := onTime.kept.step ran
  obtain ⟨⟨started, behind, _⟩, timer, ⟨latest, older, first, before, soon⟩, close⟩ := onTime
  obtain ⟨begun, short⟩ := prompt
  obtain ⟨⟨on, _, later, goesOn, _, _, again⟩, ⟨early, same⟩ | ⟨due, same⟩⟩ := monitorHandler_cases ran started behind
  · rw [same] at kept ⊢
    refine ⟨kept, again, ⟨latest, older, first, before, ?_⟩, close⟩
    change readings.ended ≤ latest + period + duration
    omega
  · rw [same] at kept ⊢
    refine ⟨kept, again, ⟨readings.dumped, _, rfl, Int.le_refl _, ?_⟩, ?_⟩
    · change readings.ended ≤ readings.dumped + period + duration
      simp only [period, msToKtime, NSEC_PER_MSEC]
      omega
    · rw [first] at close
      rw [List.cons_append, first, List.isChain_cons_cons]
      refine ⟨?_, close⟩
      -- the run before this one has not found the period over, or has dumped
      simp only [slack, msToKtime, NSEC_PER_MSEC] at timer ⊢
      omega

/-- Two dumps are a period apart, however the handler is scheduled; and where it is prompt, they are
not much more, and a dump that is due is never missed. -/
theorem dumps_on_schedule {loaded : Int} (positive : 0 ≤ loaded) {past : List (Monitor × Readings)} {monitor : Monitor}
    (execution : Execution monitorHandler (startTimer loaded) past monitor) :
    (monitor.dumps ++ [0]).IsChain (fun later earlier => earlier + period ≤ later) ∧
      ∀ latency duration : Nat, Throughout (Prompt latency duration) past →
        (monitor.clock :: monitor.dumps ++ [origin loaded]).IsChain
          fun later earlier => later ≤ earlier + period + slack latency duration := by
  have start : Kept (startTimer loaded) := ⟨Int.le_refl _, positive, ⟨[], rfl⟩, List.isChain_singleton _⟩
  refine ⟨(execution.always Kept start fun _ _ _ kept ran => kept.step ran).apart, ?_⟩
  intro latency duration prompt
  have onTime : OnTime loaded latency duration (startTimer loaded) := by
    refine ⟨start, Int.le_refl _, ⟨origin loaded, [], rfl, ?_, ?_⟩, List.isChain_singleton _⟩
    · exact Int.le_max_left _ _
    · change loaded ≤ max 0 (loaded - period) + period + duration
      omega
  obtain ⟨_, _, ⟨latest, older, first, before, soon⟩, close⟩ :=
    execution.invariant (OnTime loaded latency duration) (Prompt latency duration) onTime
      (fun _ _ _ onTime prompt ran => onTime.step prompt ran) prompt
  rw [List.cons_append, first, List.isChain_cons_cons, ← first]
  refine ⟨?_, close⟩
  simp only [slack, msToKtime, NSEC_PER_MSEC]
  omega

/-- Two runs of the handler after a load long after the start: one dumps, the next one does not. -/
theorem dumps_on_schedule_late :
    ∃ past monitor, Execution monitorHandler (startTimer (2 * period)) past monitor ∧ past.length = 2 ∧
      monitor.dumps = [20010000000] ∧ (monitor.dumps ++ [0]).IsChain (fun later earlier => earlier + period ≤ later) ∧
      (monitor.clock :: monitor.dumps ++ [origin (2 * period)]).IsChain
        fun later earlier => later ≤ earlier + period + slack 0 1 := by
  have first : monitorHandler (startTimer (2 * period)) ⟨20010000000, 20010000000, 20010000001, 20020000000⟩ =
      some ⟨20010000000, 20020000000, 20010000001, [20010000000]⟩ := by decide
  have second : monitorHandler ⟨20010000000, 20020000000, 20010000001, [20010000000]⟩
      ⟨20020000000, 20020000000, 20020000001, 20030000000⟩ =
        some ⟨20010000000, 20030000000, 20020000001, [20010000000]⟩ := by decide
  have execution := (Execution.start.step first).step second
  have onSchedule := dumps_on_schedule (by decide) execution
  refine ⟨_, _, execution, rfl, rfl, onSchedule.1, onSchedule.2 0 1 ?_⟩
  rw [throughout_append, List.nil_append, throughout_singleton, throughout_singleton]
  exact ⟨by unfold Prompt; decide, by unfold Prompt; decide⟩

end KernelLearning.LoadMonitor
