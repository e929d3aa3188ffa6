/-!
# Programs that call an environment

A `Program` is the code of one thread of control with its calls left
uninterpreted: it returns, gets stuck on a fault of its own, or performs an
operation and continues with the answer.  A `Handler` answers operations from a
world, and `run` executes a program against it.  `Delivers` is the total
correctness judgement over `run`, `Avoids` the safety judgement that holds
against every environment.
-/

namespace KernelLearning.Interaction

inductive Program (Op : Type) (Res : Op → Type) (Fault α : Type) : Type where
  | done (value : α)
  | stuck (fault : Fault)
  | call (operation : Op) (next : Res operation → Program Op Res Fault α)

/-- Answers one operation and moves the world on. -/
abbrev Handler (Op : Type) (Res : Op → Type) (World : Type) : Type :=
  (operation : Op) → World → Res operation × World

namespace Program

variable {Op : Type} {Res : Op → Type} {Fault α β World : Type}

protected def bind : Program Op Res Fault α → (α → Program Op Res Fault β) → Program Op Res Fault β
  | .done value, next => next value
  | .stuck fault, _ => .stuck fault
  | .call operation rest, next => .call operation fun answer => (rest answer).bind next

instance : Monad (Program Op Res Fault) where
  pure := .done
  bind := Program.bind

/-- A local computation that may run into a fault. -/
def attempt : Except Fault α → Program Op Res Fault α
  | .ok value => .done value
  | .error fault => .stuck fault

@[simp] theorem pure_eq (value : α) : (pure value : Program Op Res Fault α) = .done value := rfl

@[simp] theorem done_bind (value : α) (next : α → Program Op Res Fault β) :
    (Program.done value >>= next) = next value := rfl

@[simp] theorem stuck_bind (fault : Fault) (next : α → Program Op Res Fault β) :
    ((Program.stuck fault : Program Op Res Fault α) >>= next) = .stuck fault := rfl

@[simp] theorem call_bind (operation : Op) (rest : Res operation → Program Op Res Fault α)
    (next : α → Program Op Res Fault β) :
    (Program.call operation rest >>= next) = .call operation fun answer => rest answer >>= next := rfl

@[simp] theorem attempt_ok (value : α) :
    (attempt (.ok value) : Program Op Res Fault α) = .done value := rfl

@[simp] theorem attempt_error (fault : Fault) :
    (attempt (.error fault) : Program Op Res Fault α) = .stuck fault := rfl

theorem bind_assoc {γ : Type} (program : Program Op Res Fault α) (next : α → Program Op Res Fault β)
    (last : β → Program Op Res Fault γ) :
    (program >>= next >>= last) = (program >>= fun value => next value >>= last) := by
  induction program with
  | done value => rfl
  | stuck fault => rfl
  | call operation rest inductionHypothesis =>
    simp only [call_bind]
    congr 1
    funext answer
    exact inductionHypothesis answer

/-- A program that returns without an operation consists of two that do. -/
theorem done_of_bind_eq_done {program : Program Op Res Fault α} {next : α → Program Op Res Fault β}
    {value : β} (returns : (program >>= next) = .done value) :
    ∃ between, program = .done between ∧ next between = .done value := by
  cases program with
  | done between => exact ⟨between, rfl, returns⟩
  | stuck fault => cases returns
  | call operation rest => cases returns

/-! ## Running against a handler -/

def run (answer : Handler Op Res World) : Program Op Res Fault α → World → Except Fault α × World
  | .done value, world => (.ok value, world)
  | .stuck fault, world => (.error fault, world)
  | .call operation next, world =>
    run answer (next (answer operation world).1) (answer operation world).2

@[simp] theorem run_done (answer : Handler Op Res World) (value : α) (world : World) :
    run answer (.done value : Program Op Res Fault α) world = (.ok value, world) := rfl

@[simp] theorem run_stuck (answer : Handler Op Res World) (fault : Fault) (world : World) :
    run answer (.stuck fault : Program Op Res Fault α) world = (.error fault, world) := rfl

@[simp] theorem run_call (answer : Handler Op Res World) (operation : Op)
    (next : Res operation → Program Op Res Fault α) (world : World) :
    run answer (.call operation next) world =
      run answer (next (answer operation world).1) (answer operation world).2 := rfl

theorem run_bind (answer : Handler Op Res World) (program : Program Op Res Fault α)
    (next : α → Program Op Res Fault β) (world : World) :
    run answer (program >>= next) world =
      match run answer program world with
      | (.ok value, world') => run answer (next value) world'
      | (.error fault, world') => (.error fault, world') := by
  induction program generalizing world with
  | done value => rfl
  | stuck fault => rfl
  | call operation rest inductionHypothesis => exact inductionHypothesis _ _

theorem run_bind_ok {answer : Handler Op Res World} {program : Program Op Res Fault α}
    {world world' : World} {value : α} (finished : run answer program world = (.ok value, world'))
    (next : α → Program Op Res Fault β) :
    run answer (program >>= next) world = run answer (next value) world' := by
  rw [run_bind, finished]

/-! ## Total correctness -/

/-- The program returns from `world`, and what it returns satisfies `post`. -/
def Delivers (answer : Handler Op Res World) (program : Program Op Res Fault α) (world : World)
    (post : α → World → Prop) : Prop :=
  ∃ value world', run answer program world = (.ok value, world') ∧ post value world'

section
variable {answer : Handler Op Res World} {world : World}

@[simp] theorem delivers_done {value : α} {post : α → World → Prop} :
    Delivers answer (.done value : Program Op Res Fault α) world post ↔ post value world := by
  constructor
  · rintro ⟨value', world', finished, holds⟩
    cases finished
    exact holds
  · intro holds
    exact ⟨value, world, rfl, holds⟩

@[simp] theorem delivers_call {operation : Op} {next : Res operation → Program Op Res Fault α}
    {post : α → World → Prop} :
    Delivers answer (.call operation next) world post ↔
      Delivers answer (next (answer operation world).1) (answer operation world).2 post := Iff.rfl

theorem Delivers.mono {program : Program Op Res Fault α} {post weaker : α → World → Prop}
    (delivers : Delivers answer program world post)
    (weaken : ∀ value world', post value world' → weaker value world') :
    Delivers answer program world weaker := by
  obtain ⟨value, world', finished, holds⟩ := delivers
  exact ⟨value, world', finished, weaken value world' holds⟩

theorem Delivers.bind {program : Program Op Res Fault α} {next : α → Program Op Res Fault β}
    {between : α → World → Prop} {post : β → World → Prop}
    (first : Delivers answer program world between)
    (second : ∀ value world', between value world' → Delivers answer (next value) world' post) :
    Delivers answer (program >>= next) world post := by
  obtain ⟨value, world', finished, holds⟩ := first
  obtain ⟨result, last, finished', holds'⟩ := second value world' holds
  exact ⟨result, last, by rw [run_bind_ok finished, finished'], holds'⟩

theorem Delivers.of_run {program : Program Op Res Fault α} {post : α → World → Prop}
    (delivers : Delivers answer program world post) {value : α} {world' : World}
    (finished : run answer program world = (.ok value, world')) : post value world' := by
  obtain ⟨value'', world'', finished', holds⟩ := delivers
  rw [finished] at finished'
  cases finished'
  exact holds

end

/-! ## Safety against every environment -/

/-- Whatever the environment answers, the program does not end in a fault of `bad`, and
what it returns satisfies `post`. -/
def Avoids (bad : Fault → Prop) (post : α → Prop) : Program Op Res Fault α → Prop
  | .done value => post value
  | .stuck fault => ¬ bad fault
  | .call _ next => ∀ answer, Avoids bad post (next answer)

section
variable {bad : Fault → Prop}

@[simp] theorem avoids_done {post : α → Prop} {value : α} :
    Avoids bad post (.done value : Program Op Res Fault α) ↔ post value := Iff.rfl

@[simp] theorem avoids_stuck {post : α → Prop} {fault : Fault} :
    Avoids bad post (.stuck fault : Program Op Res Fault α) ↔ ¬ bad fault := Iff.rfl

theorem avoids_call_bind {operation : Op} {rest : Res operation → Program Op Res Fault α}
    {next : α → Program Op Res Fault β} {post : β → Prop}
    (all : ∀ answer, Avoids bad post (rest answer >>= next)) :
    Avoids bad post (.call operation rest >>= next) := all

theorem Avoids.bind {program : Program Op Res Fault α} {next : α → Program Op Res Fault β}
    {between : α → Prop} {post : β → Prop} (first : Avoids bad between program)
    (second : ∀ value, between value → Avoids bad post (next value)) :
    Avoids bad post (program >>= next) := by
  induction program with
  | done value => exact second value first
  | stuck fault => exact first
  | call operation rest inductionHypothesis =>
    intro answer
    exact inductionHypothesis answer (first answer)

theorem Avoids.run {program : Program Op Res Fault α} {post : α → Prop}
    (avoids : Avoids bad post program) (answer : Handler Op Res World) (world : World) {fault : Fault}
    (reached : (Program.run answer program world).1 = .error fault) : ¬ bad fault := by
  induction program generalizing world with
  | done value => cases reached
  | stuck fault' => cases reached; exact avoids
  | call operation next inductionHypothesis => exact inductionHypothesis _ (avoids _) _ reached

end

/-! ## Which operations are performed -/

/-- Whatever the environment answers, the program performs operations of `allowed` only, and
if it gets stuck, then on a fault of `tolerated`. -/
def Confined (allowed : Op → Prop) (tolerated : Fault → Prop) : Program Op Res Fault α → Prop
  | .done _ => True
  | .stuck fault => tolerated fault
  | .call operation next => allowed operation ∧ ∀ answer, Confined allowed tolerated (next answer)

section
variable {allowed : Op → Prop} {tolerated : Fault → Prop}

@[simp] theorem confined_done {value : α} :
    Confined allowed tolerated (.done value : Program Op Res Fault α) := trivial

@[simp] theorem confined_stuck {fault : Fault} :
    Confined allowed tolerated (.stuck fault : Program Op Res Fault α) ↔ tolerated fault := Iff.rfl

@[simp] theorem confined_call {operation : Op} {next : Res operation → Program Op Res Fault α} :
    Confined allowed tolerated (.call operation next) ↔
      allowed operation ∧ ∀ answer, Confined allowed tolerated (next answer) := Iff.rfl

theorem Confined.bind {program : Program Op Res Fault α} {next : α → Program Op Res Fault β}
    (first : Confined allowed tolerated program)
    (second : ∀ value, Confined allowed tolerated (next value)) :
    Confined allowed tolerated (program >>= next) := by
  induction program with
  | done value => exact second value
  | stuck fault => exact first
  | call operation rest inductionHypothesis =>
    exact ⟨first.1, fun answer => inductionHypothesis answer (first.2 answer)⟩

theorem Confined.mono {more : Op → Prop} {program : Program Op Res Fault α}
    (confined : Confined allowed tolerated program) (weaken : ∀ operation, allowed operation → more operation) :
    Confined more tolerated program := by
  induction program with
  | done value => exact trivial
  | stuck fault => exact confined
  | call operation rest inductionHypothesis =>
    exact ⟨weaken operation confined.1, fun answer => inductionHypothesis answer (confined.2 answer)⟩

theorem Confined.tolerates {program : Program Op Res Fault α} (confined : Confined allowed tolerated program)
    {answer : Handler Op Res World} {world : World} {fault : Fault}
    (reached : (run answer program world).1 = .error fault) : tolerated fault := by
  induction program generalizing world with
  | done value => cases reached
  | stuck fault' => cases reached; exact confined
  | call operation next inductionHypothesis => exact inductionHypothesis _ (confined.2 _) reached

/-- What every allowed operation keeps, the program keeps. -/
theorem Confined.keeps {program : Program Op Res Fault α} (confined : Confined allowed tolerated program)
    (kept : World → Prop) {answer : Handler Op Res World} {world : World}
    (step : ∀ operation world, allowed operation → kept world → kept (answer operation world).2)
    (initially : kept world) : kept (run answer program world).2 := by
  induction program generalizing world with
  | done value => exact initially
  | stuck fault => exact initially
  | call operation next inductionHypothesis =>
    exact inductionHypothesis _ (confined.2 _) (step operation world confined.1 initially)

end

end Program

end KernelLearning.Interaction
