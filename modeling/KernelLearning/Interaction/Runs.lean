import KernelLearning.Interaction.Program

/-!
# Runs of calls

A library keeps variables between the calls into it.  A `Run` is a sequence of
calls, each of which starts where the one before it ended, with what every call
saw and returned.
-/

namespace KernelLearning.Interaction

/-- One call: the variables and the world before it, what was asked, what came back,
and the variables and the world after it. -/
structure Event (Local Request Reply World : Type) where
  localBefore : Local
  before : World
  request : Request
  reply : Reply
  localAfter : Local
  after : World

variable {Op : Type} {Res : Op → Type} {Fault World Local Request Reply : Type}

/-- The calls so far from `init` on, with the variables and the world they lead to. -/
inductive Run (perform : Local → Request → Program Op Res Fault (Reply × Local))
    (answer : Handler Op Res World) (init : Local × World) :
    Local × World → List (Event Local Request Reply World) → Prop where
  | start : Run perform answer init init []
  | call {locals world events request reply locals' world'}
      (earlier : Run perform answer init (locals, world) events)
      (returned : (perform locals request).run answer world = (.ok (reply, locals'), world')) :
      Run perform answer init (locals', world')
        (events ++ [⟨locals, world, request, reply, locals', world'⟩])

/-- What a call ensures whenever it starts from the invariant and meets `pre`, holds of
every call of a run in which all calls meet `pre`; and so does the invariant at its end. -/
theorem Run.ensures {perform : Local → Request → Program Op Res Fault (Reply × Local)}
    {answer : Handler Op Res World} {init config : Local × World}
    {events : List (Event Local Request Reply World)}
    {invariant : Local → World → Prop} {pre : Local → World → Request → Prop}
    {post : World → Request → Reply → World → Prop}
    (step : ∀ locals world request, invariant locals world → pre locals world request →
      Program.Delivers answer (perform locals request) world fun result world' =>
        invariant result.2 world' ∧ post world request result.1 world')
    (calls : Run perform answer init config events) (initially : invariant init.1 init.2)
    (allowed : ∀ event ∈ events, pre event.localBefore event.before event.request) :
    invariant config.1 config.2 ∧
      ∀ event ∈ events, post event.before event.request event.reply event.after := by
  induction calls with
  | start => exact ⟨initially, by simp⟩
  | @call locals world events request reply locals' world' earlier returned inductionHypothesis =>
    obtain ⟨kept, ensured⟩ := inductionHypothesis fun event member => allowed event (by simp [member])
    have holds := (step locals world request kept (allowed _ (List.mem_concat_self))).of_run returned
    refine ⟨holds.1, ?_⟩
    intro event member
    rcases List.mem_append.mp member with before | last
    · exact ensured event before
    · rw [List.mem_singleton] at last
      rw [last]
      exact holds.2

end KernelLearning.Interaction
