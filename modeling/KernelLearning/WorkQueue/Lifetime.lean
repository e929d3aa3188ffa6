import KernelLearning.Interaction.Executions
import KernelLearning.WorkQueue.Driver
import Mathlib.Logic.Basic

/-!
# What outlives `pdata`

`del_timer` does not wait for `timer_isr`, which arms the timer again, and nothing
waits for the work item.  Whether the timer is used after `kfree` is decided at
`del_timer`, and whether the work item is, at `kfree`.
-/

namespace KernelLearning.WorkQueue

open Interaction

namespace System

/-- The timer will be used again: it is armed, or `timer_isr` has statements to go. -/
def Live (system : System) : Prop := system.armed = true ∨ system.timerIsr ≠ none

/-- `pdata` has been freed. -/
def Freed (system : System) : Prop := system.remove = .returned

/-- After `kfree` nothing refers to `pdata`: neither a timer, nor a work item, nor a statement of
`timer_isr` that is still to come. -/
structure Unreferenced (system : System) : Prop where
  timer : system.Freed → system.armed = false
  work : system.Freed → system.queued = false
  isr : system.Freed → system.timerIsr = none

/-- `del_timer` does not meet `timer_isr`, and `kfree` does not meet the work item on the queue. -/
def Quiet (system : System) (event : Event) : Prop :=
  event = .remove → (system.remove = .delTimer → system.timerIsr = none) ∧
    (system.remove = .kfree → system.queued = false)

/-- `kfree` meets nothing at all. -/
def FreesUnused (system : System) (event : Event) : Prop :=
  event = .remove → system.remove = .kfree → ¬ system.Live ∧ system.queued = false

/-! ## What a step does -/

/-- A step of the driver: `wq_demo_remove` goes on, or it stays where it is, and after the probe the
timer is used again exactly if it was to be before. -/
inductive Moved (system : System) : Event → System → Prop where
  | getDrvdata (returned : system.probe = .returned) (here : system.remove = .getDrvdata) :
      Moved system .remove { system with remove := .delTimer }
  | delTimer (returned : system.probe = .returned) (here : system.remove = .delTimer) :
      Moved system .remove { system with armed := false, remove := .kfree }
  | kfree (returned : system.probe = .returned) (here : system.remove = .kfree) :
      Moved system .remove { system with remove := .returned }
  | other {event : Event} {system' : System} (notRemove : event ≠ .remove) (same : system'.remove = system.remove)
      (after : system.probe = .returned → system'.probe = .returned ∧ (system'.Live ↔ system.Live))
      (queues : system'.queued = true → system.queued = true ∨ system.Live) : Moved system event system'

theorem moved {system system' : System} {event : Event} (taken : step system event = some system') :
    Moved system event system' := by
  cases event with
  | remove =>
    simp only [step, wqDemoRemove] at taken
    split at taken
    · rename_i returned
      split at taken
      · rename_i here
        cases taken
        exact .getDrvdata returned here
      · rename_i here
        cases taken
        exact .delTimer returned here
      · rename_i here
        cases taken
        exact .kfree returned here
      · cases taken
    · cases taken
  | probe allocated =>
    have notReturned : system.probe ≠ .returned := by
      intro returned
      simp [step, wqDemoProbe, returned] at taken
    have kept : system'.remove = system.remove ∧ system'.queued = system.queued := by
      simp only [step, wqDemoProbe] at taken
      split at taken <;> cases taken <;> exact ⟨rfl, rfl⟩
    exact .other Event.noConfusion kept.1 (fun returned => absurd returned notReturned)
      fun queued => .inl (kept.2.symm.trans queued)
  | expires =>
    simp only [step, expire] at taken
    split at taken
    · rename_i due
      cases taken
      refine .other Event.noConfusion rfl (fun returned => ⟨returned, ?_⟩) .inl
      exact iff_of_true (.inr (by simp)) (.inl due.1)
    · cases taken
  | timerIsr =>
    simp only [step, timerIsrStep] at taken
    split at taken
    · cases taken
    all_goals
      rename_i here
      cases taken
      -- there was a statement to go, and `add_timer`, the last one, arms the timer
      have live : system.Live := .inr (by simp [here])
      exact .other Event.noConfusion rfl (fun returned => ⟨returned, iff_of_true (by simp [Live]) live⟩)
        fun _ => .inr live
  | work =>
    simp only [step, startWork] at taken
    split at taken
    · rename_i ready
      cases taken
      exact .other Event.noConfusion rfl (fun returned => ⟨returned, .rfl⟩) fun _ => .inl ready.1
    · cases taken
  | worked =>
    simp only [step] at taken
    split at taken
    · cases taken
      exact .other Event.noConfusion rfl (fun returned => ⟨returned, .rfl⟩) .inl
    · cases taken

/-- `wq_demo_remove` begins after `wq_demo_probe` has returned. -/
theorem probed_step {system system' : System} {event : Event}
    (before : system.remove ≠ .getDrvdata → system.probe = .returned) (taken : step system event = some system')
    (begun : system'.remove ≠ .getDrvdata) : system'.probe = .returned := by
  cases moved taken with
  | getDrvdata returned here => exact returned
  | delTimer returned here => exact returned
  | kfree returned here => exact returned
  | other notRemove same after queues =>
    rw [same] at begun
    exact (after (before begun)).1

/-! ## Runs -/

/-- What the events so far have decided: nothing before `del_timer`, from there on whether the timer
is used again, and with `kfree` everything. -/
def Decided (past : List (System × Event)) (last : System) : Prop :=
  match last.remove with
  | .getDrvdata | .delTimer => Throughout Quiet past ∧ Throughout FreesUnused past
  | .kfree => Throughout FreesUnused past ∧ (last.Live ↔ ¬ Throughout Quiet past)
  | .returned => Throughout FreesUnused past ↔ Throughout Quiet past

theorem decided {past : List (System × Event)} {last : System} (execution : Execution step System.init past last) :
    Decided past last := by
  induction execution with
  | start => exact ⟨throughout_nil _, throughout_nil _⟩
  | @step past system event system' earlier taken inductionHypothesis =>
    have begun := earlier.always (fun system => system.remove ≠ .getDrvdata → system.probe = .returned)
      (fun begun => absurd rfl begun) fun _ _ _ => probed_step
    simp only [Decided] at inductionHypothesis ⊢
    simp only [throughout_append, throughout_singleton]
    -- where `remove` stands decides what has to hold of the past
    cases moved taken with
    | getDrvdata returned here =>
      simp only [here] at inductionHypothesis ⊢
      refine ⟨⟨inductionHypothesis.1, ?_⟩, inductionHypothesis.2, ?_⟩
      · simp [Quiet, here]
      · simp [FreesUnused, here]
    | delTimer returned here =>
      simp only [here] at inductionHypothesis ⊢
      refine ⟨⟨inductionHypothesis.2, ?_⟩, ?_⟩
      · simp [FreesUnused, here]
      · simp [Live, Quiet, here, inductionHypothesis.1]
    | kfree returned here =>
      simp only [here] at inductionHypothesis ⊢
      simp [FreesUnused, Quiet, here, inductionHypothesis.1, inductionHypothesis.2]
    | other notRemove same after queues =>
      have quiet : system.Quiet event := fun remove => absurd remove notRemove
      have unused : system.FreesUnused event := fun remove => absurd remove notRemove
      simp only [same, and_iff_left quiet, and_iff_left unused]
      cases here : system.remove with
      | getDrvdata => simpa only [here] using inductionHypothesis
      | delTimer => simpa only [here] using inductionHypothesis
      | kfree =>
        rw [(after (begun (by simp [here]))).2]
        simpa only [here] using inductionHypothesis
      | returned => simpa only [here] using inductionHypothesis

/-- What is kept as long as nothing is freed that is still used. -/
structure Sound (system : System) : Prop where
  probed : system.remove ≠ .getDrvdata → system.probe = .returned
  unreferenced : system.Unreferenced

theorem unreferenced_of_notFreed {system : System} (notFreed : system.remove ≠ .returned) : system.Unreferenced :=
  ⟨fun freed => absurd freed notFreed, fun freed => absurd freed notFreed, fun freed => absurd freed notFreed⟩

theorem unreferenced_of_unused {system : System} (notLive : ¬ system.Live) (notQueued : system.queued = false) :
    system.Unreferenced := by
  obtain ⟨notArmed, notRunning⟩ := not_or.mp notLive
  exact ⟨fun _ => Bool.eq_false_iff.mpr notArmed, fun _ => notQueued, fun _ => not_not.mp notRunning⟩

theorem Unreferenced.unused {system : System} (unreferenced : system.Unreferenced) (freed : system.Freed) :
    ¬ system.Live ∧ system.queued = false := by
  refine ⟨?_, unreferenced.work freed⟩
  rintro (armed | running)
  · rw [unreferenced.timer freed] at armed
    cases armed
  · exact running (unreferenced.isr freed)

/-- A step refers to freed memory for the first time exactly if it frees what is still used. -/
theorem unreferenced_iff {system system' : System} {event : Event} (sound : system.Sound)
    (taken : step system event = some system') : system'.Unreferenced ↔ system.FreesUnused event := by
  cases moved taken with
  | getDrvdata returned here =>
    refine iff_of_true (unreferenced_of_notFreed RemovePlace.noConfusion) ?_
    intro _ freeing
    rw [here] at freeing
    cases freeing
  | delTimer returned here =>
    refine iff_of_true (unreferenced_of_notFreed RemovePlace.noConfusion) ?_
    intro _ freeing
    rw [here] at freeing
    cases freeing
  | kfree returned here =>
    constructor
    · intro unreferenced _ _
      exact unreferenced.unused rfl
    · intro unused
      obtain ⟨notLive, notQueued⟩ := unused rfl here
      exact unreferenced_of_unused notLive notQueued
  | other notRemove same after queues =>
    refine iff_of_true ?_ fun remove => absurd remove notRemove
    by_cases freed : system.remove = .returned
    · obtain ⟨notLive, notQueued⟩ := sound.unreferenced.unused freed
      have probed := sound.probed (by rw [freed]; decide)
      refine unreferenced_of_unused ((after probed).2.not.mpr notLive) (Bool.eq_false_iff.mpr fun queued => ?_)
      cases queues queued with
      | inl queued =>
        rw [notQueued] at queued
        cases queued
      | inr live => exact notLive live
    · exact unreferenced_of_notFreed (by rw [same]; exact freed)

theorem sound_step {system system' : System} {event : Event} (sound : system.Sound)
    (unused : system.FreesUnused event) (taken : step system event = some system') : system'.Sound :=
  ⟨probed_step sound.probed taken, (unreferenced_iff sound taken).mpr unused⟩

/-- In every run: nothing refers to `pdata` once it is freed, exactly if, should it be freed,
`del_timer` did not meet `timer_isr` and `kfree` did not meet the work item on the queue. -/
theorem pdata_unreferenced_iff {past : List (System × Event)} {last : System}
    (execution : Execution step System.init past last) :
    (∀ system ∈ reached past last, system.Unreferenced) ↔ (last.Freed → Throughout Quiet past) := by
  have sound : System.init.Sound := ⟨fun begun => absurd rfl begun, unreferenced_of_notFreed (by decide)⟩
  -- the first step that is not quiet frees what is still used
  have steps : Throughout (fun system event => ∀ system', step system event = some system' → system'.Unreferenced)
      past ↔ Throughout FreesUnused past := by
    refine execution.throughout_iff Sound sound (fun _ _ _ => sound_step) ?_
    intro system event system' sound taken
    rw [← unreferenced_iff sound taken, taken]
    simp only [Option.some.injEq, forall_eq']
  rw [execution.forall_reached_iff, steps, and_iff_right sound.unreferenced]
  have decided := decided execution
  simp only [Decided] at decided
  split at decided
  · rename_i here
    exact iff_of_true decided.2 fun freed => absurd (here.symm.trans freed) (by decide)
  · rename_i here
    exact iff_of_true decided.2 fun freed => absurd (here.symm.trans freed) (by decide)
  · rename_i here
    exact iff_of_true decided.1 fun freed => absurd (here.symm.trans freed) (by decide)
  · rename_i here
    rw [decided]
    exact ⟨fun quiet _ => quiet, fun quiet => quiet here⟩

/-! ## Two removals -/

/-- `timer_isr` and `wq_isr` have run before `wq_demo_remove` begins. -/
theorem pdata_unreferenced_quiet : ∃ past last, Execution step System.init past last ∧ last.Freed ∧
    ∀ system ∈ reached past last, system.Unreferenced := by
  have begun : Execution step System.init [] System.init := .start
  have probed := ((((begun.followedBy (.probe true) rfl).followedBy (.probe true) rfl).followedBy (.probe true)
    rfl).followedBy (.probe true) rfl).followedBy (.probe true) rfl
  have expired := (((probed.followedBy .expires rfl).followedBy .timerIsr rfl).followedBy .timerIsr
    rfl).followedBy .timerIsr rfl
  have idle := (expired.followedBy .work rfl).followedBy .worked rfl
  have execution := ((idle.followedBy .remove rfl).followedBy .remove rfl).followedBy .remove rfl
  refine ⟨_, _, execution, rfl, (pdata_unreferenced_iff execution).mpr fun _ => ?_⟩
  simp [Quiet, Throughout, System.init]

/-- `wq_demo_remove` runs while `timer_isr` has only just begun. -/
theorem pdata_referenced : ∃ past last, Execution step System.init past last ∧
    ∃ system ∈ reached past last, ¬ system.Unreferenced := by
  have begun : Execution step System.init [] System.init := .start
  have probed := ((((begun.followedBy (.probe true) rfl).followedBy (.probe true) rfl).followedBy (.probe true)
    rfl).followedBy (.probe true) rfl).followedBy (.probe true) rfl
  have running := probed.followedBy .expires rfl
  have execution := ((running.followedBy .remove rfl).followedBy .remove rfl).followedBy .remove rfl
  refine ⟨_, _, execution, _, List.mem_append_right _ (List.mem_singleton_self _), ?_⟩
  intro unreferenced
  exact Option.some_ne_none _ (unreferenced.isr rfl)

end System

end KernelLearning.WorkQueue
