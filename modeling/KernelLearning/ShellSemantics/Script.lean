/-!
# Scripts that may end early

A script is a computation over the state of the shell and of what it works on.
`Ensures` says of a run where it returns and where it ends, `exit` in a function
included.  Its rules take a script apart command by command.
-/

namespace KernelLearning.ShellSemantics

variable {Ending σ α β : Type}

abbrev Script (Ending σ α : Type) := EStateM Ending σ α

/-- The state a run leaves, whether it returns or ends. -/
def leaves? (script : Script Ending σ α) (state : σ) : σ :=
  match script state with
  | .ok _ after | .error _ after => after

/-- A run from `state` returns as `returns` says, or ends as `ends` says. -/
def Ensures (script : Script Ending σ α) (state : σ) (returns : α → σ → Prop) (ends : Ending → σ → Prop) : Prop :=
  match script state with
  | .ok value after => returns value after
  | .error ending after => ends ending after

/-- `$(..)`: the commands run in a shell of their own, which `kept` describes; neither an
`exit` nor a variable set there reaches this one. -/
def subshell (kept : σ → σ → σ) (script : Script Ending σ α) : Script Ending σ Unit := fun state =>
  .ok () (kept state (leaves? script state))

section Rules

variable {state : σ} {returns : α → σ → Prop} {ends : Ending → σ → Prop}

@[simp] theorem ensures_pure (value : α) :
    Ensures (pure value) state returns ends ↔ returns value state := Iff.rfl

@[simp] theorem ensures_throw (ending : Ending) :
    Ensures (throw ending : Script Ending σ α) state returns ends ↔ ends ending state := Iff.rfl

@[simp] theorem ensures_get {returns : σ → σ → Prop} :
    Ensures (get : Script Ending σ σ) state returns ends ↔ returns state state := Iff.rfl

@[simp] theorem ensures_modify {returns : PUnit → σ → Prop} (change : σ → σ) :
    Ensures (modify change : Script Ending σ PUnit) state returns ends ↔ returns () (change state) := Iff.rfl

@[simp] theorem ensures_subshell {returns : Unit → σ → Prop} (kept : σ → σ → σ) (script : Script Ending σ α) :
    Ensures (subshell kept script) state returns ends ↔ returns () (kept state (leaves? script state)) := Iff.rfl

@[simp] theorem ensures_bind {returns : β → σ → Prop} (script : Script Ending σ α) (next : α → Script Ending σ β) :
    Ensures (script >>= next) state returns ends ↔
      Ensures script state (fun value after => Ensures (next value) after returns ends) ends := by
  simp only [Ensures, bind, EStateM.bind]
  cases script state <;> rfl

@[simp] theorem ensures_map {returns : β → σ → Prop} (change : α → β) (script : Script Ending σ α) :
    Ensures (change <$> script) state returns ends ↔
      Ensures script state (fun value after => returns (change value) after) ends := by
  simp only [Ensures, Functor.map, EStateM.map]
  cases script state <;> rfl

@[simp] theorem ensures_ite (condition : Prop) [Decidable condition] (first second : Script Ending σ α) :
    Ensures (if condition then first else second) state returns ends ↔
      if condition then Ensures first state returns ends else Ensures second state returns ends := by
  split <;> rfl

theorem Ensures.mono {script : Script Ending σ α} {returns' : α → σ → Prop} {ends' : Ending → σ → Prop}
    (ensures : Ensures script state returns ends) (weaken : ∀ value after, returns value after → returns' value after)
    (weakenEnds : ∀ ending after, ends ending after → ends' ending after) :
    Ensures script state returns' ends' := by
  simp only [Ensures] at *
  cases run : script state with
  | ok value after =>
    rw [run] at ensures
    exact weaken value after ensures
  | error ending after =>
    rw [run] at ensures
    exact weakenEnds ending after ensures

/-- A run that cannot return ends. -/
theorem Ensures.ended {script : Script Ending σ α} (ensures : Ensures script state returns ends)
    (never : ∀ value after, ¬ returns value after) :
    ∃ ending after, script state = .error ending after ∧ ends ending after := by
  simp only [Ensures] at ensures
  cases run : script state with
  | ok value after =>
    rw [run] at ensures
    exact absurd ensures (never value after)
  | error ending after =>
    rw [run] at ensures
    exact ⟨ending, after, rfl, ensures⟩

/-- What holds however the run stops holds of the state it leaves. -/
theorem Ensures.leaves {script : Script Ending σ α} {post : σ → Prop}
    (ensures : Ensures script state (fun _ after => post after) fun _ after => post after) :
    post (leaves? script state) := by
  simp only [Ensures, leaves?] at *
  cases run : script state with
  | ok value after =>
    rw [run] at ensures
    exact ensures
  | error ending after =>
    rw [run] at ensures
    exact ensures

end Rules

end KernelLearning.ShellSemantics
