import KernelLearning.MutexCond.Threads

/-!
# What the consumers look at

`nready` counts the puts, but `cnt` goes up before a consumer looks at a slot: the
first consumer looks at the second slot, and nobody looks at the first.
-/

namespace KernelLearning.MutexCond

open Interaction

variable {producers consumers : Nat}

/-! ## Slots on hand -/

/-- The slots that the puts of the current round have filled and no consumer has taken, after one
more step. -/
def onHandAfter (nitems : Nat) (slots : List Nat) (taken : System producers consumers × Event producers consumers) :
    List Nat :=
  match taken.2 with
  | .put _ => if taken.1.nput ≥ nitems then [0] else taken.1.nput :: slots
  | .inspect _ => slots.filter (· ≠ taken.1.cnt + 1)
  | _ => slots

def onHand (nitems : Nat) (past : List (System producers consumers × Event producers consumers)) : List Nat :=
  past.foldl (onHandAfter nitems) []

/-- The index that a consumer looks at in a step. -/
def inspected (nitems : Nat) (taken : System producers consumers × Event producers consumers) : Option Nat :=
  match taken.2 with
  | .inspect _ => if taken.1.cnt + 1 ≥ nitems then none else some (taken.1.cnt + 1)
  | _ => none

/-- A slot that a consumer looks at was filled in the current round and not taken yet; and if `cnt`
reaches `nitems`, every index was looked at exactly once. -/
structure HandedOver (nitems : Nat) (past : List (System producers consumers × Event producers consumers))
    (last : System producers consumers) : Prop where
  filled : ∀ before taken after index, past = before ++ taken :: after → inspected nitems taken = some index →
    index ∈ onHand nitems before
  once : nitems ≤ last.cnt → ∀ index < nitems, (past.filterMap (inspected nitems)).count index = 1

/-- The producers are ahead: the slot after `cnt` is one of the current round. -/
def Ahead (system : System producers consumers) (event : Event producers consumers) : Prop :=
  ∀ thread, event = .inspect thread → system.cnt + 1 < system.nput

/-! ## Which slots are on hand -/

/-- What the counters say about the slots on hand. -/
structure Counted (nitems : Nat) (slots : List Nat) (system : System producers consumers) : Prop where
  below : system.nput ≤ nitems
  filled : ∀ index ∈ slots, index < system.nput
  waiting : ∀ index, system.cnt < index → index < system.nput → index ∈ slots

variable {nitems : Nat}

theorem Counted.of_eq {slots : List Nat} {system system' : System producers consumers}
    (counted : Counted nitems slots system) (nput : system'.nput = system.nput) (cnt : system'.cnt = system.cnt) :
    Counted nitems slots system' where
  below := by rw [nput]; exact counted.below
  filled := by rw [nput]; exact counted.filled
  waiting := by rw [nput, cnt]; exact counted.waiting

theorem put_counted (positive : 1 ≤ nitems) {slots : List Nat} {system : System producers consumers}
    (counted : Counted nitems slots system) (thread : Fin producers) :
    Counted nitems (onHandAfter nitems slots (system, .put thread)) (system.put nitems) := by
  obtain ⟨below, filled, waiting⟩ := counted
  simp only [onHandAfter, System.put]
  split
  · -- a new round begins with slot 0
    refine ⟨positive, ?_, ?_⟩
    · intro index member
      rw [List.mem_singleton.mp member]
      exact Nat.zero_lt_one
    · intro index above first
      exact absurd above (Nat.not_lt.mpr (Nat.le_trans (Nat.le_of_lt_succ first) (Nat.zero_le _)))
  · rename_i room
    refine ⟨Nat.lt_of_not_le room, ?_, ?_⟩
    · intro index member
      cases List.mem_cons.mp member with
      | inl last => rw [last]; exact Nat.lt_succ_self _
      | inr earlier => exact Nat.lt_succ_of_lt (filled index earlier)
    · intro index above before
      by_cases last : index = system.nput
      · rw [last]
        exact List.mem_cons_self
      · exact List.mem_cons_of_mem _ (waiting index above (by simp only at before; omega))

theorem count_counted {slots : List Nat} {system : System producers consumers}
    (counted : Counted nitems slots system) (thread : Fin consumers) :
    Counted nitems (onHandAfter nitems slots (system, .inspect thread))
      ({ system with cnt := system.cnt + 1 } : System producers consumers) := by
  refine ⟨counted.below, ?_, ?_⟩
  · intro index member
    exact counted.filled index (List.mem_filter.mp member).1
  · intro index above before
    have above : system.cnt + 1 < index := above
    refine List.mem_filter.mpr ⟨counted.waiting index (by omega) before, ?_⟩
    simp only [ne_eq, decide_not, Bool.not_eq_eq_eq_not, Bool.not_true, decide_eq_false_iff_not]
    omega

theorem onHand_counted (positive : 1 ≤ nitems)
    {past : List (System producers consumers × Event producers consumers)} {last : System producers consumers}
    (execution : Execution (step nitems) (System.init producers consumers) past last) :
    Counted nitems (onHand nitems past) last := by
  induction execution with
  | start =>
    exact ⟨Nat.zero_le _, fun _ member => absurd member List.not_mem_nil,
      fun _ _ before => absurd before (Nat.not_lt_zero _)⟩
  | @step past system event system' earlier taken inductionHypothesis =>
    rw [onHand, List.foldl_append]
    change Counted nitems (onHandAfter nitems (onHand nitems past) (system, event)) system'
    cases touched taken with
    | put thread same => exact (put_counted positive inductionHypothesis thread).of_eq same.nput same.cnt
    | returns thread last same => exact (count_counted inductionHypothesis thread).of_eq same.nput same.cnt
    | empty thread below zero same => exact (count_counted inductionHypothesis thread).of_eq same.nput same.cnt
    | prints thread below filled same => exact (count_counted inductionHypothesis thread).of_eq same.nput same.cnt
    -- the sections under the other mutex leave the slots alone
    | other notPut notInspect same =>
      have still : onHandAfter nitems (onHand nitems past) (system, event) = onHand nitems past := by
        cases event with
        | put thread => exact absurd rfl (notPut thread)
        | inspect thread => exact absurd rfl (notInspect thread)
        | ready thread woken => rfl
        | gate thread => rfl
        | wake thread => rfl
      rw [still]
      exact inductionHypothesis.of_eq same.nput same.cnt

/-! ## The cursor -/

theorem cnt_le {system system' : System producers consumers} {event : Event producers consumers}
    (taken : step nitems system event = some system') : system.cnt ≤ system'.cnt := by
  cases touched taken with
  | put thread same =>
    rw [same.cnt]
    simp only [System.put]
    split <;> exact Nat.le_refl _
  | returns thread last same =>
    rw [same.cnt]
    exact Nat.le_succ _
  | empty thread below zero same =>
    rw [same.cnt]
    exact Nat.le_succ _
  | prints thread below filled same =>
    rw [same.cnt]
    exact Nat.le_succ _
  | other notPut notInspect same => exact Nat.le_of_eq same.cnt.symm

theorem inspect_cnt {system system' : System producers consumers} {thread : Fin consumers}
    (taken : step nitems system (.inspect thread) = some system') : system'.cnt = system.cnt + 1 := by
  cases touched taken with
  | returns thread last same => exact same.cnt
  | empty thread below zero same => exact same.cnt
  | prints thread below filled same => exact same.cnt
  | other notPut notInspect same => exact absurd rfl (notInspect thread)

/-- Behind the producers, the cursor stays below `nitems`. -/
theorem ahead_below (positive : 1 ≤ nitems)
    {past : List (System producers consumers × Event producers consumers)} {last : System producers consumers}
    (execution : Execution (step nitems) (System.init producers consumers) past last)
    (ahead : Throughout Ahead past) : last.cnt < nitems := by
  induction execution with
  | start => exact positive
  | @step past system event system' earlier taken inductionHypothesis =>
    rw [throughout_append, throughout_singleton] at ahead
    -- the counter of the producers stays at most `nitems`
    have below := (onHand_counted positive earlier).below
    cases touched taken with
    | put thread same =>
      have cnt : (system.put nitems).cnt = system.cnt := by
        simp only [System.put]
        split <;> rfl
      rw [same.cnt, cnt]
      exact inductionHypothesis ahead.1
    | returns thread _ same =>
      rw [same.cnt]
      exact Nat.lt_of_lt_of_le (ahead.2 thread rfl) below
    | empty thread inside _ same =>
      rw [same.cnt]
      exact inside
    | prints thread inside _ same =>
      rw [same.cnt]
      exact inside
    | other _ _ same =>
      rw [same.cnt]
      exact inductionHypothesis ahead.1

theorem inspected_pos {taken : System producers consumers × Event producers consumers} {index : Nat}
    (looks : inspected nitems taken = some index) : 0 < index := by
  simp only [inspected] at looks
  split at looks
  · split at looks
    · cases looks
    · cases looks
      exact Nat.succ_pos _
  · cases looks

/-- The consumers look at slots that are handed over to them exactly in the runs in which the
producers are ahead by one more slot than `nready` promises. -/
theorem handed_over_iff (positive : 1 ≤ nitems)
    {past : List (System producers consumers × Event producers consumers)} {last : System producers consumers}
    (execution : Execution (step nitems) (System.init producers consumers) past last) :
    HandedOver nitems past last ↔ Throughout Ahead past := by
  constructor
  · rintro handed ⟨system, event⟩ member thread same
    obtain ⟨before, after, split⟩ := List.append_of_mem member
    subst split
    obtain ⟨earlier, next, taken, later⟩ := execution.split
    rcases Nat.lt_or_ge (system.cnt + 1) nitems with below | atEnd
    · have looks : inspected nitems (system, event) = some (system.cnt + 1) := by
        cases same
        exact if_neg (Nat.not_le.mpr below)
      exact (onHand_counted positive earlier).filled _ (handed.filled _ _ _ _ rfl looks)
    · -- `cnt` reaches `nitems`, but nobody has looked at slot 0
      have now : nitems ≤ next.cnt := by
        cases same
        rw [inspect_cnt taken]
        exact atEnd
      have reached : nitems ≤ last.cnt :=
        later.always (fun state => nitems ≤ state.cnt) now fun _ _ _ le moved => Nat.le_trans le (cnt_le moved)
      have once := handed.once reached 0 positive
      have member : 0 ∈ (before ++ (system, event) :: after).filterMap (inspected nitems) :=
        List.count_pos_iff.mp (by rw [once]; exact Nat.zero_lt_one)
      obtain ⟨_, _, looks⟩ := List.mem_filterMap.mp member
      exact absurd (inspected_pos looks) (Nat.lt_irrefl 0)
  · intro ahead
    refine ⟨?_, fun reached => absurd (ahead_below positive execution ahead) (Nat.not_lt.mpr reached)⟩
    rintro before ⟨system, event⟩ after index rfl looks
    obtain ⟨earlier, _⟩ := execution.split
    have behind := ahead (system, event) (List.mem_append_right _ List.mem_cons_self)
    simp only [inspected] at looks
    split at looks
    · rename_i thread
      split at looks
      · cases looks
      · cases looks
        exact (onHand_counted positive earlier).waiting _ (Nat.lt_succ_self _) (behind _ rfl)
    · cases looks

/-- Two items are put before the first consumer looks. -/
theorem handed_over_two : ∃ past last, Execution (step 3) (System.init 1 1) past last ∧ last.printed = [(1, 1)] ∧
    HandedOver 3 past last := by
  obtain ⟨past, before, last, execution, printed, cnt, nput, others⟩ := prints_second
  refine ⟨_, last, execution, printed, (handed_over_iff (by decide) execution).mpr ?_⟩
  rw [throughout_append, throughout_singleton]
  refine ⟨fun taken member thread same => absurd same (others taken member thread), fun _ _ => ?_⟩
  rw [cnt, nput]
  decide

/-- One item is put, and the consumer that it is for looks at the slot after it. -/
theorem looked_at_empty : ¬ ∀ (producers consumers nitems : Nat), 1 ≤ nitems → nitems ≤ MAXSIZE →
    ∀ (past : List (System producers consumers × Event producers consumers)) (last : System producers consumers),
      Execution (step nitems) (System.init producers consumers) past last → HandedOver nitems past last := by
  intro claim
  have begun : Execution (step 2) (System.init 1 1) [] (System.init 1 1) := .start
  have gated := ((begun.followedBy (.put 0) rfl).followedBy (.ready 0 none) rfl).followedBy (.gate 0) rfl
  have execution := gated.followedBy (.inspect 0) rfl
  have handed := claim 1 1 2 (by decide) (by decide) _ _ execution
  have member := handed.filled _ _ _ 1 rfl rfl
  exact absurd member (by decide)

end KernelLearning.MutexCond
