import KernelLearning.MutexCond.Threads

/-!
# Consumers that are left blocked

`produce` signals only when `nready` goes from 0 to 1, and wakes one consumer then.
Whatever else is ready is for consumers that are awake; once the last of them has
returned, nobody is signalled again.
-/

namespace KernelLearning.MutexCond

open Interaction

variable {producers consumers : Nat}

namespace System

/-- Items are ready and consumers are blocked, and all the others have returned. -/
structure Stranded (system : System producers consumers) : Prop where
  ready : 0 < system.nready
  blocked : ∃ thread, system.consumer thread = .blocked
  others : ∀ thread, system.consumer thread = .blocked ∨ system.consumer thread = .returned

/-- A consumer that returns while items are ready and another one is blocked is not the last one
that is awake. -/
def NotLastAwake (nitems : Nat) (system : System producers consumers) (event : Event producers consumers) : Prop :=
  ∀ thread, event = .inspect thread → nitems ≤ system.cnt + 1 → 0 < system.nready →
    (∃ other, system.consumer other = .blocked) →
      ∃ other, other ≠ thread ∧ system.consumer other ≠ .blocked ∧ system.consumer other ≠ .returned

theorem notLastAwake_of_ne {nitems : Nat} {system : System producers consumers} {event : Event producers consumers}
    (notInspect : ∀ thread, event ≠ .inspect thread) : system.NotLastAwake nitems event :=
  fun thread same => absurd same (notInspect thread)

theorem Stranded.iff_of_eq {system system' : System producers consumers} (nready : system'.nready = system.nready)
    (consumer : system'.consumer = system.consumer) : system'.Stranded ↔ system.Stranded := by
  constructor
  · rintro ⟨ready, blocked, others⟩
    exact ⟨by rw [← nready]; exact ready, by rw [← consumer]; exact blocked, by rw [← consumer]; exact others⟩
  · rintro ⟨ready, blocked, others⟩
    exact ⟨by rw [nready]; exact ready, by rw [consumer]; exact blocked, by rw [consumer]; exact others⟩

/-- With a consumer awake, nobody is stranded. -/
theorem not_stranded_of_awake {system : System producers consumers} {thread : Fin consumers}
    (notBlocked : system.consumer thread ≠ .blocked) (notReturned : system.consumer thread ≠ .returned) :
    ¬ system.Stranded := by
  intro stranded
  cases stranded.others thread with
  | inl blocked => exact notBlocked blocked
  | inr returned => exact notReturned returned

theorem not_stranded_of_moved {system : System producers consumers} (thread : Fin consumers) {place : ConsumerPlace}
    (notBlocked : place ≠ .blocked) (notReturned : place ≠ .returned) :
    ¬ (system.moveConsumer thread place).Stranded := by
  have here : (system.moveConsumer thread place).consumer thread = place := Function.update_self _ _ _
  exact not_stranded_of_awake (by rw [here]; exact notBlocked) (by rw [here]; exact notReturned)

theorem ready_stranded {system system' : System producers consumers} {woken : Option (Fin consumers)}
    (notStranded : ¬ system.Stranded) (readied : system.ready woken = some system') : ¬ system'.Stranded := by
  simp only [ready] at readied
  split at readied
  · split at readied
    · rename_i signals
      cases readied
      cases woken with
      | some thread =>
        -- the consumer that is woken goes on to the gate
        have awake : (system.signal (some thread)).consumer thread = .gate := Function.update_self _ _ _
        intro stranded
        cases stranded.others thread with
        | inl blocked => exact absurd (awake.symm.trans blocked) (by decide)
        | inr returned => exact absurd (awake.symm.trans returned) (by decide)
      | none =>
        intro stranded
        obtain ⟨thread, blocked⟩ := stranded.blocked
        exact signals thread blocked
    · cases readied
  · rename_i positive
    split at readied
    · cases readied
      intro stranded
      exact notStranded ⟨Nat.pos_of_ne_zero positive, stranded.blocked, stranded.others⟩
    · cases readied

theorem gate_stranded (system : System producers consumers) (thread : Fin consumers) :
    ¬ (system.gate thread).Stranded := by
  simp only [gate]
  split
  · rename_i nothing
    intro stranded
    have ready : 0 < system.nready := stranded.ready
    omega
  · exact not_stranded_of_moved thread (by decide) (by decide)

/-- After a consumer has returned, its place no longer counts. -/
theorem stranded_returned_iff {system : System producers consumers} {thread : Fin consumers}
    (inspects : system.consumer thread = .inspect) :
    (system.moveConsumer thread .returned).Stranded ↔
      0 < system.nready ∧ (∃ other, system.consumer other = .blocked) ∧
        ∀ other, other ≠ thread → system.consumer other = .blocked ∨ system.consumer other = .returned := by
  have here : (system.moveConsumer thread .returned).consumer thread = .returned := Function.update_self _ _ _
  have elsewhere : ∀ other, other ≠ thread →
      (system.moveConsumer thread .returned).consumer other = system.consumer other :=
    fun other different => Function.update_of_ne different _ _
  constructor
  · rintro ⟨ready, ⟨other, blocked⟩, others⟩
    refine ⟨ready, ⟨other, ?_⟩, ?_⟩
    · have different : other ≠ thread := by
        rintro rfl
        exact absurd (here.symm.trans blocked) (by decide)
      rw [← elsewhere other different]
      exact blocked
    · intro other different
      rw [← elsewhere other different]
      exact others other
  · rintro ⟨ready, ⟨other, blocked⟩, others⟩
    refine ⟨ready, ⟨other, ?_⟩, ?_⟩
    · -- the consumer that returns was not blocked before
      have different : other ≠ thread := by
        rintro rfl
        rw [inspects] at blocked
        cases blocked
      rw [elsewhere other different]
      exact blocked
    · intro other
      by_cases same : other = thread
      · right
        rw [same]
        exact here
      · rw [elsewhere other same]
        exact others other same

/-- A consumer that goes on is awake; one that returns strands the blocked ones if it was the last. -/
theorem inspect_stranded_iff {nitems : Nat} {system : System producers consumers} {thread : Fin consumers}
    (inspects : system.consumer thread = .inspect) :
    ¬ (system.inspect nitems thread).Stranded ↔ system.NotLastAwake nitems (.inspect thread) := by
  simp only [inspect]
  by_cases last : system.cnt + 1 ≥ nitems
  · have returned := @stranded_returned_iff _ _ { system with cnt := system.cnt + 1 } thread inspects
    -- the consumer that returns is the last one awake, unless another one is neither blocked nor returned
    rw [if_pos last, returned]
    constructor
    · intro notStranded thread' same _ ready blocked
      cases same
      by_contra nobody
      refine notStranded ⟨ready, blocked, ?_⟩
      intro other different
      by_contra neither
      obtain ⟨notBlocked, notReturned⟩ := not_or.mp neither
      exact nobody ⟨other, different, notBlocked, notReturned⟩
    · rintro notLast ⟨ready, blocked, others⟩
      obtain ⟨awake, different, notBlocked, notReturned⟩ := notLast thread rfl last ready blocked
      cases others awake different with
      | inl isBlocked => exact notBlocked isBlocked
      | inr isReturned => exact notReturned isReturned
  · rw [if_neg last]
    refine iff_of_true (not_stranded_of_moved thread (by decide) (by decide)) ?_
    intro _ _ reached
    exact absurd reached last

theorem step_stranded_iff {nitems : Nat} {system system' : System producers consumers}
    {event : Event producers consumers} (notStranded : ¬ system.Stranded)
    (taken : step nitems system event = some system') :
    ¬ system'.Stranded ↔ system.NotLastAwake nitems event := by
  cases event with
  | put thread =>
    refine iff_of_true ?_ (notLastAwake_of_ne fun _ same => by cases same)
    simp only [step] at taken
    split at taken
    · cases taken
      -- putting an item touches neither `nready` nor a consumer
      have nready : ((system.put nitems).moveProducer thread .ready).nready = system.nready := by
        simp only [moveProducer, put]
        split <;> rfl
      have consumer : ((system.put nitems).moveProducer thread .ready).consumer = system.consumer := by
        simp only [moveProducer, put]
        split <;> rfl
      rw [Stranded.iff_of_eq nready consumer]
      exact notStranded
    · cases taken
  | ready thread woken =>
    refine iff_of_true ?_ (notLastAwake_of_ne fun _ same => by cases same)
    simp only [step] at taken
    split at taken
    · obtain ⟨next, readied, rfl⟩ := Option.map_eq_some_iff.mp taken
      intro stranded
      exact ready_stranded notStranded readied ⟨stranded.ready, stranded.blocked, stranded.others⟩
    · cases taken
  | gate thread =>
    refine iff_of_true ?_ (notLastAwake_of_ne fun _ same => by cases same)
    simp only [step] at taken
    split at taken
    · cases taken
      exact gate_stranded system thread
    · cases taken
  | wake thread =>
    refine iff_of_true ?_ (notLastAwake_of_ne fun _ same => by cases same)
    simp only [step] at taken
    split at taken
    · cases taken
      exact not_stranded_of_moved thread (by decide) (by decide)
    · cases taken
  | inspect thread =>
    -- the only step that can strand a consumer
    simp only [step] at taken
    split at taken
    · rename_i inspects
      cases taken
      exact inspect_stranded_iff inspects
    · cases taken

end System

/-- No consumer is stranded exactly in the runs in which none returns as the last one awake while
items are ready and another one is blocked. -/
theorem never_stranded_iff {nitems : Nat} {past : List (System producers consumers × Event producers consumers)}
    {last : System producers consumers}
    (execution : Execution (step nitems) (System.init producers consumers) past last) :
    (∀ system ∈ reached past last, ¬ system.Stranded) ↔ Throughout (System.NotLastAwake nitems) past := by
  have initially : ¬ (System.init producers consumers).Stranded :=
    fun stranded => absurd stranded.ready (Nat.lt_irrefl 0)
  rw [execution.forall_reached_iff, and_iff_right initially]
  refine execution.throughout_iff (fun system => ¬ system.Stranded) initially ?_ ?_
  · intro system event system' notStranded notLast taken
    exact (System.step_stranded_iff notStranded taken).mpr notLast
  · intro system event system' notStranded taken
    simp only [taken, Option.some.injEq, forall_eq']
    exact System.step_stranded_iff notStranded taken

/-- A consumer that prints and goes on. -/
theorem never_stranded_one : ∃ past last, Execution (step 3) (System.init 1 1) past last ∧
    last.printed = [(1, 1)] ∧ ∀ system ∈ reached past last, ¬ system.Stranded := by
  obtain ⟨past, before, last, execution, printed, cnt, _, others⟩ := prints_second
  refine ⟨_, last, execution, printed, (never_stranded_iff execution).mpr ?_⟩
  rw [throughout_append, throughout_singleton]
  refine ⟨fun taken member thread same => absurd same (others taken member thread), ?_⟩
  intro thread _ reached
  rw [cnt] at reached
  exact absurd reached (by decide)

/-- Two consumers wait for one item; both items that are put come before the one that is woken
takes the first, and it returns. -/
def bothBlocked : List (Event 1 2) :=
  [.gate 0, .gate 1, .put 0, .ready 0 (some 0), .put 0, .ready 0 none, .gate 0, .inspect 0]

theorem consumer_stranded : ¬ ∀ (producers consumers nitems : Nat)
    (past : List (System producers consumers × Event producers consumers)) (last : System producers consumers),
    Execution (step nitems) (System.init producers consumers) past last →
      ∀ system ∈ reached past last, ¬ system.Stranded := by
  intro claim
  obtain ⟨past, _, execution⟩ :=
    execution_of_perform (show perform (step 1) (System.init 1 2) bothBlocked = some _ from rfl)
  refine claim 1 2 1 past _ execution _ (List.mem_append_right _ (List.mem_singleton_self _)) ⟨?_, ⟨1, ?_⟩, ?_⟩
  · decide
  · decide
  · decide

end KernelLearning.MutexCond
