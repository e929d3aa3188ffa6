import Mathlib.Logic.Function.Basic

/-!
# Named objects

A registry gives names to objects.  An object goes on after its name is taken away, for
those who have opened it, and its number is never given to another object.
-/

namespace KernelLearning.Interaction

structure Registry (Name Content : Type) where
  entry : Name → Option Nat
  content : Nat → Content
  created : Nat
  bounded : ∀ name id, entry name = some id → id < created

namespace Registry

variable {Name Content : Type} [DecidableEq Name]

def unlink (registry : Registry Name Content) (name : Name) : Registry Name Content where
  entry := Function.update registry.entry name none
  content := registry.content
  created := registry.created
  bounded := by
    intro other id here
    rw [Function.update_apply] at here
    split at here
    · cases here
    · exact registry.bounded other id here

/-- Creation of a name that is not there yet; `none` if it is. -/
def create (registry : Registry Name Content) (name : Name) (content : Content) :
    Option (Registry Name Content) :=
  match registry.entry name with
  | some _ => none
  | none => some
    { entry := Function.update registry.entry name (some registry.created)
      content := Function.update registry.content registry.created content
      created := registry.created + 1
      bounded := by
        intro other id here
        rw [Function.update_apply] at here
        split at here
        · cases here
          exact Nat.lt_succ_self _
        · exact Nat.lt_succ_of_lt (registry.bounded other id here) }

def write (registry : Registry Name Content) (id : Nat) (content : Content) : Registry Name Content :=
  { registry with content := Function.update registry.content id content }

variable {registry registry' : Registry Name Content}

@[simp] theorem content_unlink (name : Name) : (registry.unlink name).content = registry.content := rfl
@[simp] theorem created_unlink (name : Name) : (registry.unlink name).created = registry.created := rfl

theorem entry_of_unlink {name other : Name} {id : Nat} (here : (registry.unlink name).entry other = some id) :
    registry.entry other = some id := by
  simp only [unlink, Function.update_apply] at here
  split at here
  · cases here
  · exact here

/-- What a creation did. -/
structure Created (registry : Registry Name Content) (name : Name) (content : Content)
    (registry' : Registry Name Content) : Prop where
  entry : registry'.entry = Function.update registry.entry name (some registry.created)
  content : registry'.content = Function.update registry.content registry.created content
  created : registry'.created = registry.created + 1

theorem created_of_create {name : Name} {content : Content} (made : registry.create name content = some registry') :
    Created registry name content registry' := by
  simp only [create] at made
  split at made
  · cases made
  · cases made
    exact ⟨rfl, rfl, rfl⟩

end Registry

section

variable {Name Content : Type} {registry : Registry Name Content}

@[simp] theorem Registry.entry_write (id : Nat) (content : Content) :
    (registry.write id content).entry = registry.entry := rfl

@[simp] theorem Registry.created_write (id : Nat) (content : Content) :
    (registry.write id content).created = registry.created := rfl

@[simp] theorem Registry.content_write (id : Nat) (content : Content) :
    (registry.write id content).content = Function.update registry.content id content := rfl

end

end KernelLearning.Interaction
