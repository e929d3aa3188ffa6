/-!
# Executions of an event system

A system has a state and a step for each event; the step is `none` where the
event cannot happen.  An `Execution` records the state in which every event was
taken.  The rules below speak of all executions whose events are allowed in the
states in which they are taken, for a condition `allowed` of the caller's choice.
-/

namespace KernelLearning.Interaction

variable {State Event : Type}

/-- The events taken so far from `init` on, each with the state it was taken in,
and the state they lead to. -/
inductive Execution (step : State → Event → Option State) (init : State) :
    List (State × Event) → State → Prop where
  | start : Execution step init [] init
  | step {past state event state'} (earlier : Execution step init past state)
      (taken : step state event = some state') :
      Execution step init (past ++ [(state, event)]) state'

variable {step : State → Event → Option State} {init last : State} {past : List (State × Event)}

/-- The condition holds of every event of the execution, in the state it was taken in. -/
def Throughout (holds : State → Event → Prop) (past : List (State × Event)) : Prop :=
  ∀ taken ∈ past, holds taken.1 taken.2

@[simp] theorem throughout_nil (holds : State → Event → Prop) : Throughout holds [] := by
  simp [Throughout]

@[simp] theorem throughout_append (holds : State → Event → Prop) (past later : List (State × Event)) :
    Throughout holds (past ++ later) ↔ Throughout holds past ∧ Throughout holds later := by
  simp only [Throughout, List.mem_append, or_imp, forall_and]

@[simp] theorem throughout_singleton (holds : State → Event → Prop) (state : State) (event : Event) :
    Throughout holds [(state, event)] ↔ holds state event := by
  simp [Throughout]

theorem throughout_and (left right : State → Event → Prop) (past : List (State × Event)) :
    Throughout (fun state event => left state event ∧ right state event) past ↔
      Throughout left past ∧ Throughout right past := by
  simp only [Throughout, imp_and, forall_and]

/-- What holds at the start and survives every allowed step holds at the end of every
execution whose steps are all allowed. -/
theorem Execution.invariant (execution : Execution step init past last) (holds : State → Prop)
    (allowed : State → Event → Prop) (initially : holds init)
    (kept : ∀ state event state', holds state → allowed state event →
      step state event = some state' → holds state')
    (all : Throughout allowed past) : holds last := by
  induction execution with
  | start => exact initially
  | step earlier taken inductionHypothesis =>
    rw [throughout_append, throughout_singleton] at all
    exact kept _ _ _ (inductionHypothesis all.1) all.2 taken

/-- Every state of an execution: those the events were taken in, and the last one. -/
def reached (past : List (State × Event)) (last : State) : List State := past.map Prod.fst ++ [last]

theorem Execution.invariant_reached (execution : Execution step init past last) (holds : State → Prop)
    (allowed : State → Event → Prop) (initially : holds init)
    (kept : ∀ state event state', holds state → allowed state event →
      step state event = some state' → holds state')
    (all : Throughout allowed past) : ∀ state ∈ reached past last, holds state := by
  induction execution with
  | start => simpa [reached] using initially
  | step earlier taken inductionHypothesis =>
    rw [throughout_append, throughout_singleton] at all
    have before := inductionHypothesis all.1
    -- the state before the step is one of the states reached before
    have here := before _ (List.mem_append_right _ (List.mem_singleton_self _))
    intro state member
    simp only [reached, List.map_append, List.map_cons, List.map_nil, List.mem_append,
      List.mem_singleton] at member before
    cases member with
    | inl earlier => exact before state earlier
    | inr last =>
      rw [last]
      exact kept _ _ _ here all.2 taken

/-- A condition holds of every state of an execution if it holds of the first one and of the one
after every step. -/
theorem Execution.forall_reached_iff (execution : Execution step init past last) (holds : State → Prop) :
    (∀ state ∈ reached past last, holds state) ↔
      holds init ∧ Throughout (fun state event => ∀ state', step state event = some state' → holds state') past := by
  induction execution with
  | start => simp [reached]
  | @step past state event state' earlier taken inductionHypothesis =>
    have members : ∀ other, other ∈ reached (past ++ [(state, event)]) state' ↔
        other ∈ reached past state ∨ other = state' := by
      simp [reached, or_assoc]
    simp only [members, or_imp, forall_and, forall_eq, inductionHypothesis, throughout_append,
      throughout_singleton, taken, Option.some.injEq, forall_eq', and_assoc]

/-- What survives every step at all. -/
theorem Execution.always (execution : Execution step init past last) (holds : State → Prop)
    (initially : holds init)
    (kept : ∀ state event state', holds state → step state event = some state' → holds state') :
    holds last := by
  induction execution with
  | start => exact initially
  | step earlier taken inductionHypothesis => exact kept _ _ _ inductionHypothesis taken

/-- What survives every step holds of every state an event was taken in. -/
theorem Execution.always_before (execution : Execution step init past last) (holds : State → Prop)
    (initially : holds init)
    (kept : ∀ state event state', holds state → step state event = some state' → holds state') :
    ∀ taken ∈ past, holds taken.1 := by
  induction execution with
  | start => simp
  | step earlier taken inductionHypothesis =>
    simp only [List.mem_append, List.mem_singleton, or_imp, forall_and, forall_eq]
    exact ⟨inductionHypothesis, earlier.always holds initially kept⟩

/-- What holds at the end and not at the start, came about with an event of the execution. -/
theorem Execution.origin (execution : Execution step init past last) (holds : State → Prop)
    (initially : ¬ holds init) (atEnd : holds last) :
    ∃ taken ∈ past, ¬ holds taken.1 ∧ ∃ next, step taken.1 taken.2 = some next ∧ holds next := by
  induction execution with
  | start => exact absurd atEnd initially
  | @step past state event state' earlier taken inductionHypothesis =>
    by_cases before : holds state
    · obtain ⟨origin, member, came⟩ := inductionHypothesis before
      exact ⟨origin, List.mem_append_left _ member, came⟩
    · exact ⟨(state, event), by simp, before, state', taken, atEnd⟩

/-- What every step from the states of an invariant counts up by one, counts the steps. -/
theorem Execution.count_eq (execution : Execution step init past last) (holds : State → Prop) (count : State → Nat)
    (initially : holds init)
    (kept : ∀ state event state', holds state → step state event = some state' → holds state')
    (counts : ∀ state event state', holds state → step state event = some state' → count state' = count state + 1) :
    count last = count init + past.length := by
  induction execution with
  | start => simp
  | step earlier taken inductionHypothesis =>
    have before := earlier.always holds initially kept
    rw [counts _ _ _ before taken, inductionHypothesis, List.length_append, List.length_singleton, Nat.add_assoc]

/-- An event that is good in the states of an invariant exactly when it is allowed, is good
throughout an execution exactly when it is allowed throughout: the first event that is not
allowed is taken in a state of the invariant, and so it is not good either. -/
theorem Execution.throughout_iff (execution : Execution step init past last) (holds : State → Prop)
    {allowed good : State → Event → Prop} (initially : holds init)
    (kept : ∀ state event state', holds state → allowed state event →
      step state event = some state' → holds state')
    (exact : ∀ state event state', holds state → step state event = some state' →
      (good state event ↔ allowed state event)) :
    Throughout good past ↔ Throughout allowed past := by
  induction execution with
  | start => simp
  | @step past state event state' earlier taken inductionHypothesis =>
    simp only [throughout_append, throughout_singleton]
    -- both sides give the earlier steps, and with them the invariant of the state before the last
    constructor
    · rintro ⟨before, now⟩
      have allowedBefore := inductionHypothesis.mp before
      have invariant := earlier.invariant holds allowed initially kept allowedBefore
      exact ⟨allowedBefore, (exact _ _ _ invariant taken).mp now⟩
    · rintro ⟨before, now⟩
      have invariant := earlier.invariant holds allowed initially kept before
      exact ⟨inductionHypothesis.mpr before, (exact _ _ _ invariant taken).mpr now⟩

/-- One more event, named. -/
theorem Execution.followedBy {state state' : State} (earlier : Execution step init past state)
    (event : Event) (taken : step state event = some state') :
    Execution step init (past ++ [(state, event)]) state' :=
  earlier.step taken

/-- Executions compose. -/
theorem Execution.append {middle : State} {later : List (State × Event)}
    (first : Execution step init past middle) (second : Execution step middle later last) :
    Execution step init (past ++ later) last := by
  induction second with
  | start => simpa using first
  | step _ taken inductionHypothesis =>
    rw [← List.append_assoc]
    exact inductionHypothesis.step taken

/-- The execution up to an event, the step it is, and the execution from there on. -/
theorem Execution.split {before after : List (State × Event)} {taken : State × Event}
    (execution : Execution step init (before ++ taken :: after) last) :
    Execution step init before taken.1 ∧
      ∃ next, step taken.1 taken.2 = some next ∧ Execution step next after last := by
  generalize whole : before ++ taken :: after = past at execution
  induction execution generalizing after with
  | start => simp at whole
  | @step past state event state' earlier now inductionHypothesis =>
    rcases List.eq_nil_or_concat after with nothing | ⟨rest, other, split⟩
    · -- the event is the last one
      rw [nothing] at whole
      obtain ⟨rfl, same⟩ := List.append_inj' whole rfl
      cases same
      refine ⟨earlier, state', now, ?_⟩
      rw [nothing]
      exact .start
    · rw [split, List.concat_eq_append, ← List.cons_append, ← List.append_assoc] at whole
      obtain ⟨front, same⟩ := List.append_inj' whole rfl
      cases same
      obtain ⟨first, next, there, later⟩ := inductionHypothesis front
      refine ⟨first, next, there, ?_⟩
      rw [split, List.concat_eq_append]
      exact later.step now

/-! ## Performing given events -/

def perform (step : State → Event → Option State) : State → List Event → Option State
  | state, [] => some state
  | state, event :: events => (step state event).bind fun state' => perform step state' events

/-- Events that can be performed make an execution. -/
theorem execution_of_perform {events : List Event} (performed : perform step init events = some last) :
    ∃ past, past.map Prod.snd = events ∧ Execution step init past last := by
  induction events generalizing init with
  | nil =>
    obtain rfl := Option.some.inj performed
    exact ⟨[], rfl, .start⟩
  | cons event events inductionHypothesis =>
    simp only [perform, Option.bind_eq_some_iff] at performed
    obtain ⟨next, taken, later⟩ := performed
    obtain ⟨past, events_eq, execution⟩ := inductionHypothesis later
    refine ⟨(init, event) :: past, by simp [events_eq], ?_⟩
    exact (Execution.start.step taken).append execution

end KernelLearning.Interaction
