/-!
# Loops

`while` and `for` over a state, where what is evaluated can fail.  A `while` loop
has a bound on its turns and fails when they are used up; the rule of the loop asks
for an invariant and for a variant below that bound, so the loops it speaks of end.
-/

namespace KernelLearning.CSemantics

variable {σ : Type}

/-- At most as many turns as given. -/
def whileLoop (cond : σ → Option Bool) (body : σ → Option σ) : Nat → σ → Option σ
  | 0, _ => none
  | turns + 1, state =>
    (cond state).bind fun continues =>
      if continues = true then (body state).bind (whileLoop cond body turns) else some state

/-- `count` turns with an index that counts up. -/
def forTurns (body : Int → σ → Option σ) : Nat → Int → σ → Option σ
  | 0, _, state => some state
  | count + 1, index, state => (body index state).bind (forTurns body count (index + 1))

/-- `for(i = first; i < last; i++)` where the body does not assign to `i`. -/
def forLoop (first last : Int) (body : Int → σ → Option σ) (state : σ) : Option σ :=
  forTurns body (last - first).toNat first state

/-- The condition never fails and every turn keeps the invariant and lowers the variant: the loop
ends with the invariant, where the condition is false. -/
theorem whileLoop_spec (cond : σ → Option Bool) (body : σ → Option σ) (invariant : σ → Prop) (variant : σ → Nat)
    (evaluates : ∀ state, invariant state → ∃ continues, cond state = some continues)
    (turn : ∀ state, invariant state → cond state = some true →
      ∃ next, body state = some next ∧ invariant next ∧ variant next < variant state)
    {turns : Nat} (state : σ) (initially : invariant state) (enough : variant state < turns) :
    ∃ last, whileLoop cond body turns state = some last ∧ invariant last ∧ cond last = some false := by
  induction turns generalizing state with
  | zero => exact absurd enough (Nat.not_lt_zero _)
  | succ turns inductionHypothesis =>
    obtain ⟨continues, evaluated⟩ := evaluates state initially
    simp only [whileLoop, evaluated, Option.bind_some]
    cases continues with
    | false => exact ⟨state, rfl, initially, evaluated⟩
    | true =>
      obtain ⟨next, done, kept, less⟩ := turn state initially evaluated
      simp only [if_true, done, Option.bind_some]
      exact inductionHypothesis next kept (by omega)

/-- However many turns are allowed, a loop that ends does so in one state. -/
theorem whileLoop_unique {cond : σ → Option Bool} {body : σ → Option σ} {turns turns' : Nat} {state last last' : σ}
    (ends : whileLoop cond body turns state = some last) (ends' : whileLoop cond body turns' state = some last') :
    last = last' := by
  induction turns generalizing turns' state with
  | zero => cases ends
  | succ turns inductionHypothesis =>
    cases turns' with
    | zero => cases ends'
    | succ turns' =>
      rw [whileLoop] at ends ends'
      obtain ⟨continues, evaluated, after⟩ := Option.bind_eq_some_iff.mp ends
      rw [evaluated, Option.bind_some] at ends'
      cases continues with
      | false =>
        rw [if_neg Bool.false_ne_true, Option.some.injEq] at after ends'
        rw [← after, ends']
      | true =>
        rw [if_pos rfl] at after ends'
        obtain ⟨next, done, further⟩ := Option.bind_eq_some_iff.mp after
        rw [done, Option.bind_some] at ends'
        exact inductionHypothesis further ends'

/-- With more turns allowed the loop ends in the same state. -/
theorem whileLoop_mono {cond : σ → Option Bool} {body : σ → Option σ} {turns turns' : Nat} {state last : σ}
    (ends : whileLoop cond body turns state = some last) (more : turns ≤ turns') :
    whileLoop cond body turns' state = some last := by
  induction turns generalizing turns' state with
  | zero => cases ends
  | succ turns inductionHypothesis =>
    obtain ⟨fewer, rfl⟩ : ∃ fewer, turns' = fewer + 1 := ⟨turns' - 1, by omega⟩
    obtain ⟨continues, evaluated, after⟩ := Option.bind_eq_some_iff.mp ends
    rw [whileLoop, evaluated, Option.bind_some]
    cases continues with
    | false => exact after
    | true =>
      rw [if_pos rfl] at after ⊢
      obtain ⟨next, done, further⟩ := Option.bind_eq_some_iff.mp after
      rw [done, Option.bind_some]
      exact inductionHypothesis further (by omega)

/-- What every turn keeps holds where the loop ends, if it ends. -/
theorem whileLoop_keeps {cond : σ → Option Bool} {body : σ → Option σ} (holds : σ → Prop)
    (turn : ∀ state next, holds state → body state = some next → holds next) {turns : Nat} {state last : σ}
    (initially : holds state) (ends : whileLoop cond body turns state = some last) : holds last := by
  induction turns generalizing state with
  | zero => cases ends
  | succ turns inductionHypothesis =>
    obtain ⟨continues, _, after⟩ := Option.bind_eq_some_iff.mp ends
    cases continues with
    | false =>
      rw [if_neg Bool.false_ne_true, Option.some.injEq] at after
      rw [← after]
      exact initially
    | true =>
      rw [if_pos rfl] at after
      obtain ⟨next, done, further⟩ := Option.bind_eq_some_iff.mp after
      exact inductionHypothesis (turn state next initially done) further

/-- An invariant of the index: the loop ends with it at the last index. -/
theorem forLoop_spec (body : Int → σ → Option σ) {first last : Int} (invariant : Int → σ → Prop)
    (turn : ∀ index state, first ≤ index → index < last → invariant index state →
      ∃ next, body index state = some next ∧ invariant (index + 1) next)
    (state : σ) (initially : invariant first state) (ordered : first ≤ last) :
    ∃ final, forLoop first last body state = some final ∧ invariant last final := by
  -- induction on the turns that are left
  have turns : ∀ (count : Nat) (index : Int) (state : σ), first ≤ index → index + count = last →
      invariant index state → ∃ final, forTurns body count index state = some final ∧ invariant last final := by
    intro count
    induction count with
    | zero =>
      intro index state _ here holds
      refine ⟨state, rfl, ?_⟩
      rw [← here]
      simpa using holds
    | succ count inductionHypothesis =>
      intro index state low here holds
      obtain ⟨next, done, kept⟩ := turn index state low (by omega) holds
      simp only [forTurns, done, Option.bind_some]
      exact inductionHypothesis (index + 1) next (by omega) (by omega) kept
  exact turns _ first state (Int.le_refl _) (by omega) initially

/-- One more turn at the end. -/
theorem forTurns_succ (body : Int → σ → Option σ) (count : Nat) (index : Int) (state : σ) :
    forTurns body (count + 1) index state = (forTurns body count index state).bind (body (index + count)) := by
  induction count generalizing index state with
  | zero =>
    simp only [forTurns, Option.bind_some, Int.natCast_zero, Int.add_zero]
    cases body index state <;> rfl
  | succ count inductionHypothesis =>
    rw [forTurns, forTurns, Option.bind_assoc]
    congr 1
    funext next
    rw [inductionHypothesis, Int.natCast_succ, Int.add_assoc, Int.add_comm 1]

/-- The body fails at one of the indices whatever the state is, so the loop does not end. -/
theorem forLoop_eq_none (body : Int → σ → Option σ) {first last index : Int} (low : first ≤ index)
    (high : index < last) (fails : ∀ state, body index state = none) (state : σ) :
    forLoop first last body state = none := by
  have turns : ∀ (count : Nat) (start : Int) (state : σ), start ≤ index → index < start + count →
      forTurns body count start state = none := by
    intro count
    induction count with
    | zero =>
      intro start state before after
      omega
    | succ count inductionHypothesis =>
      intro start state before after
      by_cases here : start = index
      · rw [forTurns, here, fails, Option.bind_none]
      · rw [forTurns]
        cases body start state with
        | none => rfl
        | some next => exact inductionHypothesis (start + 1) next (by omega) (by omega)
  exact turns _ first state low (by omega)

end KernelLearning.CSemantics
