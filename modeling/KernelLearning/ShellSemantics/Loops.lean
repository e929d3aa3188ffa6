/-!
# Loops over `seq`

`for i in $(seq 1 N)` runs its body for 1 up to N, and stops where the body does.
-/

namespace KernelLearning.ShellSemantics

variable {σ : Type}

/-- `for i in $(seq 1 $count); do body; done`, where a failing body ends the script. -/
def forSeq (count : Nat) (body : Nat → σ → Option σ) (state : σ) : Option σ :=
  (List.range' 1 count).foldlM (fun state index => body index state) state

@[simp] theorem forSeq_zero (body : Nat → σ → Option σ) (state : σ) : forSeq 0 body state = some state := rfl

theorem forSeq_succ (count : Nat) (body : Nat → σ → Option σ) (state : σ) :
    forSeq (count + 1) body state = (forSeq count body state).bind (body (count + 1)) := by
  simp [forSeq, List.range'_concat, List.foldlM_append, Nat.add_comm 1]

/-- An invariant indexed by the number of iterations done. -/
theorem forSeq_invariant (count : Nat) (body : Nat → σ → Option σ) {state : σ} (holds : Nat → σ → Prop)
    (initially : holds 0 state)
    (iteration : ∀ index state, index < count → holds index state →
      ∃ state', body (index + 1) state = some state' ∧ holds (index + 1) state') :
    ∃ state', forSeq count body state = some state' ∧ holds count state' := by
  -- the loop is followed up to each number of iterations below its end
  have upTo : ∀ done, done ≤ count → ∃ state', forSeq done body state = some state' ∧ holds done state' := by
    intro done
    induction done with
    | zero => exact fun _ => ⟨state, rfl, initially⟩
    | succ done inductionHypothesis =>
      intro bound
      obtain ⟨middle, reached, before⟩ := inductionHypothesis (by omega)
      obtain ⟨after, performed, now⟩ := iteration done middle (by omega) before
      refine ⟨after, ?_, now⟩
      rw [forSeq_succ, reached]
      exact performed
  exact upTo count (Nat.le_refl count)

/-- What every iteration keeps, a loop that comes to its end keeps. -/
theorem forSeq_keeps {count : Nat} {body : Nat → σ → Option σ} {state state' : σ} (holds : σ → Prop)
    (iteration : ∀ index state state', index < count → body (index + 1) state = some state' →
      holds state → holds state')
    (reached : forSeq count body state = some state') (initially : holds state) : holds state' := by
  induction count generalizing state' with
  | zero =>
    obtain rfl := Option.some.inj reached
    exact initially
  | succ count inductionHypothesis =>
    rw [forSeq_succ, Option.bind_eq_some_iff] at reached
    obtain ⟨middle, earlier, performed⟩ := reached
    refine iteration count middle state' (Nat.lt_succ_self _) performed ?_
    exact inductionHypothesis
      (fun index state state' bound => iteration index state state' (Nat.lt_succ_of_lt bound)) earlier

end KernelLearning.ShellSemantics
