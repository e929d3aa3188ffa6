import KernelLearning.Interaction.Program

/-!
# Environments whose operations can fail

A failure pattern decides, for each fallible operation in turn, whether the
environment answers or refuses.  A refused operation gets its failure answer and
leaves the world alone.
-/

namespace KernelLearning.Interaction

structure Faulty (World : Type) where
  world : World
  /-- Whether the fallible operations still to come are refused. -/
  pattern : Nat → Bool
  /-- Whether an operation was refused already. -/
  failed : Bool

variable {Op : Type} {Res : Op → Type} {Fault α World : Type}

/-- `failure` gives the answer of a refused operation, `none` for one that never fails. -/
def withFailures (failure : (operation : Op) → Option (Res operation))
    (answer : Handler Op Res World) : Handler Op Res (Faulty World) :=
  fun operation state =>
    match failure operation with
    | none =>
      ((answer operation state.world).1, { state with world := (answer operation state.world).2 })
    | some refusal =>
      let later := fun index => state.pattern (index + 1)
      if state.pattern 0 then (refusal, { state with pattern := later, failed := true })
      else
        ((answer operation state.world).1,
          { state with world := (answer operation state.world).2, pattern := later })

/-- The state before anything has failed. -/
def Faulty.start (world : World) (pattern : Nat → Bool) : Faulty World := ⟨world, pattern, false⟩

/-- The pattern in which nothing fails. -/
def never : Nat → Bool := fun _ => false

section
variable {failure : (operation : Op) → Option (Res operation)} {answer : Handler Op Res World}

theorem withFailures_never (operation : Op) (world : World) (failed : Bool) :
    withFailures failure answer operation ⟨world, never, failed⟩ =
      ((answer operation world).1, ⟨(answer operation world).2, never, failed⟩) := by
  unfold withFailures
  split <;> rfl

/-- Without failures the program runs as it does in the environment itself. -/
theorem Program.run_withFailures_never (program : Program Op Res Fault α) (world : World)
    (failed : Bool) :
    run (withFailures failure answer) program ⟨world, never, failed⟩ =
      ((run answer program world).1, ⟨(run answer program world).2, never, failed⟩) := by
  induction program generalizing world with
  | done value => rfl
  | stuck fault => rfl
  | call operation next inductionHypothesis =>
    simp only [run_call, withFailures_never]
    exact inductionHypothesis _ _

/-- Where nothing fails, nothing will fail after the program. -/
theorem Program.Delivers.stays_never {program : Program Op Res Fault α} {world : World} {failed : Bool}
    {post : α → Faulty World → Prop}
    (delivers : Delivers (withFailures failure answer) program ⟨world, never, failed⟩ post) :
    Delivers (withFailures failure answer) program ⟨world, never, failed⟩ fun value after =>
      post value after ∧ after.pattern = never := by
  obtain ⟨value, after, finished, holds⟩ := delivers
  refine ⟨value, after, finished, holds, ?_⟩
  rw [run_withFailures_never, Prod.mk.injEq] at finished
  rw [← finished.2]

/-- What is delivered under every pattern is delivered when nothing fails. -/
theorem Program.Delivers.of_never {program : Program Op Res Fault α} {world : World}
    {post : α → Faulty World → Prop}
    (delivers : Delivers (withFailures failure answer) program ⟨world, never, false⟩ post) :
    Delivers answer program world fun value world' => post value ⟨world', never, false⟩ := by
  obtain ⟨value, world', finished, holds⟩ := delivers
  rw [run_withFailures_never, Prod.mk.injEq] at finished
  obtain ⟨returned, rfl⟩ := finished
  exact ⟨value, _, Prod.ext returned rfl, holds⟩

end

/-! ## How far a pattern was used up -/

namespace Faulty

/-- Between the two states `calls` fallible operations were answered and none refused. -/
structure Passed (calls : Nat) (before after : Faulty World) : Prop where
  failed_eq : after.failed = before.failed
  pattern_eq : ∀ index, after.pattern index = before.pattern (calls + index)
  answered : ∀ index < calls, before.pattern index = false

/-- One of the next `calls` fallible operations was refused. -/
structure Refused (calls : Nat) (before after : Faulty World) : Prop where
  failed : after.failed = true
  refused : ∃ index < calls, before.pattern index = true

variable {before between after : Faulty World} {first second : Nat}

theorem Passed.refl (state : Faulty World) (world : World) : Passed 0 state { state with world := world } where
  failed_eq := rfl
  pattern_eq index := by rw [Nat.zero_add]
  answered index impossible := by omega

theorem Passed.trans (left : Passed first before between) (right : Passed second between after) :
    Passed (first + second) before after where
  failed_eq := right.failed_eq.trans left.failed_eq
  pattern_eq index := by rw [right.pattern_eq, left.pattern_eq, Nat.add_assoc]
  answered index bound := by
    by_cases early : index < first
    · exact left.answered index early
    · have later := right.answered (index - first) (by omega)
      rwa [left.pattern_eq, show first + (index - first) = index by omega] at later

theorem Passed.refused (left : Passed first before between) (right : Refused second between after) :
    Refused (first + second) before after where
  failed := right.failed
  refused := by
    obtain ⟨index, bound, hit⟩ := right.refused
    exact ⟨first + index, by omega, by rw [← left.pattern_eq, hit]⟩

theorem Refused.mono (refused : Refused first before after) (le : first ≤ second) :
    Refused second before after where
  failed := refused.failed
  refused := by
    obtain ⟨index, bound, hit⟩ := refused.refused
    exact ⟨index, by omega, hit⟩

theorem not_refused_never {world : World} {failed : Bool} :
    ¬ Refused first ⟨world, never, failed⟩ after := by
  rintro ⟨_, index, _, hit⟩
  cases hit

end Faulty

section
variable {failure : (operation : Op) → Option (Res operation)} {answer : Handler Op Res World}

/-- The world moves on as in the environment itself, or stays. -/
theorem withFailures_world (failure : (operation : Op) → Option (Res operation))
    (answer : Handler Op Res World) (operation : Op) (state : Faulty World) :
    (withFailures failure answer operation state).2.world = (answer operation state.world).2 ∨
      (withFailures failure answer operation state).2.world = state.world := by
  unfold withFailures
  split
  · exact .inl rfl
  · split
    · exact .inr rfl
    · exact .inl rfl

/-- A call that cannot fail is answered and leaves the pattern alone. -/
theorem withFailures_infallible {operation : Op} (infallible : failure operation = none)
    (state : Faulty World) :
    withFailures failure answer operation state =
      ((answer operation state.world).1, { state with world := (answer operation state.world).2 }) := by
  simp [withFailures, infallible]

/-- A fallible call uses up one entry of the pattern. -/
theorem withFailures_fallible (failure : (operation : Op) → Option (Res operation))
    (answer : Handler Op Res World) (operation : Op) {refusal : Res operation}
    (fallible : failure operation = some refusal) (state : Faulty World) :
    withFailures failure answer operation state =
      if state.pattern 0 then
        (refusal, { state with pattern := fun index => state.pattern (index + 1), failed := true })
      else
        ((answer operation state.world).1, { state with
          world := (answer operation state.world).2
          pattern := fun index => state.pattern (index + 1) }) := by
  simp only [withFailures, fallible]

/-- A fallible call is answered or refused. -/
theorem withFailures_cases (failure : (operation : Op) → Option (Res operation))
    (answer : Handler Op Res World) (operation : Op) {refusal : Res operation}
    (fallible : failure operation = some refusal) (state : Faulty World) :
    ∃ after : Faulty World,
      (withFailures failure answer operation state = ((answer operation state.world).1, after) ∧
        after.world = (answer operation state.world).2 ∧ Faulty.Passed 1 state after) ∨
      (withFailures failure answer operation state = (refusal, after) ∧ after.world = state.world ∧
        Faulty.Refused 1 state after) := by
  rw [withFailures_fallible failure answer operation fallible]
  by_cases refused : state.pattern 0 = true
  · rw [if_pos refused]
    exact ⟨_, .inr ⟨rfl, rfl, rfl, 0, by omega, refused⟩⟩
  · rw [if_neg refused]
    refine ⟨_, .inl ⟨rfl, rfl, rfl, ?_, ?_⟩⟩
    · intro index
      exact congrArg state.pattern (Nat.add_comm index 1)
    · intro index bound
      rw [show index = 0 by omega]
      simpa using refused

end

end KernelLearning.Interaction
