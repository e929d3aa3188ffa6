import KernelLearning.EpollServer.Server

/-!
# What the echo to a client depends on

The buffer of `do_epoll` outlives the batches.  What a client can tell of it from
its own messages and from the order of the events decides whether its echo depends
on the other clients.
-/

namespace KernelLearning.EpollServer

open Bytes Interaction

/-! ## The uses of the buffer -/

/-- The use of the buffer in a step, if there is one. -/
def Step.usage (listenfd : Int) : Step → Option (Usage Nat UInt8)
  | .event reported =>
    if reported.fd = listenfd ∧ reported.epollin = true then none
    else if reported.epollin = true then
      match reported.bytes with
      | some (first :: rest) => some (.read reported.client (first :: rest))
      | _ => none
    else none
  | .batchDone => some .clear

def uses (listenfd : Int) (steps : List Step) : List (Usage Nat UInt8) := steps.filterMap (Step.usage listenfd)

/-- What is read leaves the last byte of the buffer alone. -/
def Step.Fits : Step → Prop
  | .event reported => ∀ message, reported.bytes = some message → message.length ≤ MAXSIZE - 1
  | .batchDone => True

theorem usage_fits {listenfd : Int} {step : Step} (fits : step.Fits) :
    ∀ use ∈ step.usage listenfd, use.Fits (MAXSIZE - 1) := by
  intro use member
  cases step with
  | batchDone =>
    -- the end of a batch clears, and clearing always fits
    obtain rfl := Option.some.inj member
    trivial
  | event reported =>
    simp only [Step.usage] at member
    split at member
    · cases member
    · split at member
      · split at member
        -- only a message that was read uses the buffer: a hang-up and an error do not
        · rename_i first rest read
          obtain rfl := Option.some.inj member
          exact ⟨Nat.succ_pos _, fits _ read⟩
        · cases member
      · cases member

theorem uses_fit {listenfd : Int} {steps : List Step} (fits : ∀ step ∈ steps, step.Fits) :
    ∀ use ∈ uses listenfd steps, use.Fits (MAXSIZE - 1) := by
  intro use member
  obtain ⟨step, inside, made⟩ := List.mem_filterMap.mp member
  exact usage_fits (fits step inside) use made

/-- A step changes the buffer as its use does. -/
theorem step_buf {listenfd : Int} {server server' : Server} {taken : Step} (fits : taken.Fits)
    (performed : step listenfd server taken = some server') :
    server'.buf = ((taken.usage listenfd).toList.foldl (Usage.apply 0) server.buf) := by
  cases taken with
  | batchDone =>
    obtain rfl := Option.some.inj performed
    rfl
  | event reported =>
    simp only [step] at performed
    split at performed
    · simp only [Server.handleEvent] at performed
      simp only [Step.usage]
      split at performed
      · rename_i listening
        rw [if_pos listening]
        cases answer : reported.accepted with
        | none =>
          rw [answer] at performed
          cases performed
        | some clifd =>
          rw [answer] at performed
          obtain rfl := Option.some.inj performed
          rfl
      · rename_i other
        rw [if_neg other]
        split at performed
        · rename_i readable
          rw [if_pos readable]
          obtain rfl := Option.some.inj performed
          cases bytes : reported.bytes with
          | none => rfl
          | some message =>
            cases message with
            | nil => rfl
            | cons first rest =>
              -- a message that fits is read in one piece
              have whole : (first :: rest).take MAXSIZE = first :: rest := by
                refine List.take_of_length_le (Nat.le_trans (fits _ bytes) ?_)
                exact Nat.sub_le _ _
              simp only [Server.doRead, whole]
              rfl
        · rename_i notReadable
          rw [if_neg notReadable]
          obtain rfl := Option.some.inj performed
          rfl
    · cases performed

theorem perform_buf {listenfd : Int} {steps : List Step} {server server' : Server}
    (fits : ∀ step ∈ steps, step.Fits) (performed : perform (step listenfd) server steps = some server') :
    server'.buf = (uses listenfd steps).foldl (Usage.apply 0) server.buf := by
  induction steps generalizing server with
  | nil =>
    obtain rfl := Option.some.inj performed
    rfl
  | cons first steps inductionHypothesis =>
    simp only [List.mem_cons, forall_eq_or_imp] at fits
    simp only [perform, Option.bind_eq_some_iff] at performed
    obtain ⟨next, taken, later⟩ := performed
    rw [inductionHypothesis fits.2 later, step_buf fits.1 taken, ← List.foldl_append]
    congr 1
    rw [uses, uses, List.filterMap_cons]
    cases first.usage listenfd <;> rfl

/-! ## Two histories -/

/-- The same step but for what another client sent. -/
inductive Step.Alike (client : Nat) : Step → Step → Prop where
  | same (step : Step) : Alike client step step
  | foreign (reported : Event) (different : reported.client ≠ client) {message : List UInt8}
      (sent : reported.bytes = some message) (nonempty : message ≠ []) {message' : List UInt8}
      (nonempty' : message' ≠ []) :
      Alike client (.event reported) (.event { reported with bytes := some message' })

theorem usage_alike {listenfd : Int} {client : Nat} {first second : Step} (alike : first.Alike client second) :
    Option.Rel (Usage.Alike client) (first.usage listenfd) (second.usage listenfd) := by
  cases alike with
  | same =>
    cases first.usage listenfd with
    | none => exact .none
    | some use => exact .some (.same use)
  | foreign reported different sent nonempty nonempty' =>
    simp only [Step.usage, sent]
    split
    · exact .none
    · split
      · obtain ⟨head, tail, rfl⟩ := List.exists_cons_of_ne_nil nonempty
        obtain ⟨head', tail', rfl⟩ := List.exists_cons_of_ne_nil nonempty'
        exact .some (.foreign different _ _)
      · exact .none

theorem uses_alike {listenfd : Int} {client : Nat} {past past' : List Step}
    (alike : List.Forall₂ (Step.Alike client) past past') :
    List.Forall₂ (Usage.Alike client) (uses listenfd past) (uses listenfd past') :=
  List.rel_filterMap (fun _ _ same => usage_alike same) alike

/-- Another client can send any message instead. -/
theorem exchange {listenfd : Int} {client other : Nat} {taken : Step} {message message' : List UInt8}
    (made : taken.usage listenfd = some (.read other message)) (different : other ≠ client)
    (nonempty : message' ≠ []) (short : message'.length ≤ MAXSIZE - 1) :
    ∃ taken', taken.Alike client taken' ∧ taken'.usage listenfd = some (.read other message') ∧ taken'.Fits := by
  cases taken with
  | batchDone => cases made
  | event reported =>
    simp only [Step.usage] at made
    split at made
    · cases made
    · rename_i notListening
      split at made
      · rename_i readable
        split at made
        -- the event was a message of the other client, so the kernel can report another one
        · rename_i first rest sent
          cases made
          refine ⟨_, .foreign reported different sent (List.cons_ne_nil _ _) nonempty, ?_, ?_⟩
          · obtain ⟨head, tail, rfl⟩ := List.exists_cons_of_ne_nil nonempty
            simp only [Step.usage]
            rw [if_neg notListening, if_pos readable]
          · intro sent' same
            obtain rfl := Option.some.inj same
            exact short
        · cases made
      · cases made

/-- What a client cannot tell from the uses of a history is a history with other messages of the
others. -/
theorem history_of_alike {listenfd : Int} {client : Nat} {past : List Step} (fits : ∀ step ∈ past, step.Fits)
    {uses' : List (Usage Nat UInt8)} (alike : List.Forall₂ (Usage.Alike client) (uses listenfd past) uses')
    (fits' : ∀ use ∈ uses', use.Fits (MAXSIZE - 1)) :
    ∃ past', List.Forall₂ (Step.Alike client) past past' ∧ (∀ step ∈ past', step.Fits) ∧
      uses listenfd past' = uses' := by
  induction past generalizing uses' with
  | nil => exact ⟨[], .nil, fits, (List.forall₂_nil_left_iff.mp alike).symm⟩
  | cons first past inductionHypothesis =>
    simp only [List.mem_cons, forall_eq_or_imp] at fits
    simp only [uses, List.filterMap_cons] at alike
    cases made : first.usage listenfd with
    -- the step does not use the buffer, and stays as it is
    | none =>
      rw [made] at alike
      obtain ⟨past', steps, kept, rfl⟩ := inductionHypothesis fits.2 alike fits'
      refine ⟨first :: past', .cons (.same first) steps, List.forall_mem_cons.mpr ⟨fits.1, kept⟩, ?_⟩
      simp only [uses, List.filterMap_cons, made]
    | some use =>
      rw [made] at alike
      obtain ⟨use', rest, head, tail, rfl⟩ := List.forall₂_cons_left_iff.mp alike
      obtain ⟨fitsHead, fitsTail⟩ := List.forall_mem_cons.mp fits'
      obtain ⟨past', steps, kept, rfl⟩ := inductionHypothesis fits.2 tail fitsTail
      cases head with
      | same =>
        refine ⟨first :: past', .cons (.same first) steps, List.forall_mem_cons.mpr ⟨fits.1, kept⟩, ?_⟩
        simp only [uses, List.filterMap_cons, made]
      -- a message of another client, which `exchange` puts in place of the one that was sent
      | foreign different message message' =>
        have nonempty : message' ≠ [] := List.ne_nil_of_length_pos fitsHead.1
        obtain ⟨first', same, made', fit⟩ := exchange made different nonempty fitsHead.2
        refine ⟨first' :: past', .cons same steps, List.forall_mem_cons.mpr ⟨fit, kept⟩, ?_⟩
        simp only [uses, List.filterMap_cons, made']

/-! ## The same events -/

theorem doRead_interest (server : Server) (fd : Int) {message : List UInt8} (nonempty : message ≠ []) :
    (server.doRead fd (some message)).interest = server.interest := by
  obtain ⟨head, tail, rfl⟩ := List.exists_cons_of_ne_nil nonempty
  rfl

/-- Which descriptors are watched does not depend on the buffer, nor on what is read. -/
theorem doRead_interest_eq {server other : Server} (same : server.interest = other.interest) (fd : Int)
    (bytes : Option (List UInt8)) : (server.doRead fd bytes).interest = (other.doRead fd bytes).interest := by
  cases bytes with
  | none => simp only [Server.doRead, Server.deleteEvent, same]
  | some message =>
    cases message with
    | nil => simp only [Server.doRead, Server.deleteEvent, same]
    | cons first rest => exact same

theorem step_interest (listenfd : Int) {client : Nat} {taken taken' : Step} {server other : Server}
    (alike : taken.Alike client taken') (same : server.interest = other.interest) :
    (step listenfd server taken).map Server.interest = (step listenfd other taken').map Server.interest := by
  cases alike with
  | same =>
    cases taken with
    | batchDone => simp only [step, Option.map_some, same]
    | event reported =>
      simp only [step, Server.handleEvent, same]
      -- the branches of `handle_events`: a connection, a message, neither, and nothing watched
      split
      · split
        · cases reported.accepted with
          | none => rfl
          | some clifd => simp only [Server.handleAccept, Server.addEvent, Option.map_some, same]
        · split
          · simp only [Option.map_some, doRead_interest_eq same]
          · simp only [Option.map_some, same]
      · rfl
  | foreign reported different sent nonempty nonempty' =>
    simp only [step, Server.handleEvent, same, sent]
    split
    · split
      · cases reported.accepted with
        | none => rfl
        | some clifd => simp only [Server.handleAccept, Server.addEvent, Option.map_some, same]
      · split
        · simp only [Option.map_some, doRead_interest _ _ nonempty, doRead_interest _ _ nonempty', same]
        · simp only [Option.map_some, same]
    · rfl

/-- A history that happens also happens with other messages of the others. -/
theorem perform_alike {listenfd : Int} {client : Nat} {past past' : List Step}
    (alike : List.Forall₂ (Step.Alike client) past past') {server other server' : Server}
    (same : server.interest = other.interest) (performed : perform (step listenfd) server past = some server') :
    ∃ other', perform (step listenfd) other past' = some other' := by
  induction alike generalizing server other with
  | nil => exact ⟨other, rfl⟩
  | @cons taken taken' past past' head tail inductionHypothesis =>
    simp only [perform, Option.bind_eq_some_iff] at performed ⊢
    obtain ⟨next, now, later⟩ := performed
    have interest := step_interest listenfd head same
    rw [now, Option.map_some] at interest
    obtain ⟨next', now', interest'⟩ := Option.map_eq_some_iff.mp interest.symm
    obtain ⟨other', later'⟩ := inductionHypothesis interest'.symm later
    exact ⟨other', next', now', later'⟩

/-! ## The echo to one client -/

/-- What `do_read` writes. -/
def Server.echoes (server : Server) (fd : Int) (message : List UInt8) : List (Int × List UInt8) :=
  (server.doRead fd (some message)).written.drop server.written.length

/-- After this history, the client behind the descriptor is echoed the same for its message as after
every history that differs only in what the other clients sent. -/
def EchoIsolated (listenfd : Int) (past : List Step) (client : Nat) (fd : Int) (message : List UInt8) : Prop :=
  ∀ past', List.Forall₂ (Step.Alike client) past past' → (∀ step ∈ past', step.Fits) →
    ∀ server server', perform (step listenfd) (Server.init listenfd) past = some server →
      perform (step listenfd) (Server.init listenfd) past' = some server' →
        server'.echoes fd message = server.echoes fd message

theorem echoes_eq (server : Server) (fd : Int) {message : List UInt8} (nonempty : 0 < message.length)
    (short : message.length ≤ MAXSIZE - 1) :
    server.echoes fd message = [(fd, text 0 (overlay server.buf 0 message))] := by
  have whole : message.take MAXSIZE = message := by
    refine List.take_of_length_le (Nat.le_trans short ?_)
    exact Nat.sub_le _ _
  obtain ⟨head, tail, rfl⟩ := List.exists_cons_of_ne_nil (List.ne_nil_of_length_pos nonempty)
  simp only [Server.echoes, Server.doRead, whole, List.drop_left]

/-- The uses of the buffer up to the message. -/
def usesUpTo (listenfd : Int) (past : List Step) (client : Nat) (message : List UInt8) : List (Usage Nat UInt8) :=
  uses listenfd past ++ [.read client message]

section

variable {listenfd : Int} {past : List Step} {server : Server} {message : List UInt8}

theorem echoes_filled (fits : ∀ step ∈ past, step.Fits) (client : Nat) (fd : Int)
    (performed : perform (step listenfd) (Server.init listenfd) past = some server)
    (nonempty : 0 < message.length) (short : message.length ≤ MAXSIZE - 1) :
    server.echoes fd message = [(fd, text 0 (filled 0 (MAXSIZE - 1) (usesUpTo listenfd past client message)))] := by
  rw [echoes_eq server fd nonempty short, perform_buf fits performed, usesUpTo, filled, List.foldl_append]
  rfl

theorem usesUpTo_fit (listenfd : Int) (fits : ∀ step ∈ past, step.Fits) (client : Nat) (nonempty : 0 < message.length)
    (short : message.length ≤ MAXSIZE - 1) :
    ∀ use ∈ usesUpTo listenfd past client message, use.Fits (MAXSIZE - 1) := by
  intro use member
  cases List.mem_append.mp member with
  | inl earlier => exact uses_fit fits use earlier
  | inr last =>
    obtain rfl := List.mem_singleton.mp last
    exact ⟨nonempty, short⟩

/-- The histories with other messages give the buffers that are possible for the client. -/
theorem isolated_iff_possible (performed : perform (step listenfd) (Server.init listenfd) past = some server)
    (fits : ∀ step ∈ past, step.Fits) (client : Nat) (fd : Int) (nonempty : 0 < message.length)
    (short : message.length ≤ MAXSIZE - 1) :
    EchoIsolated listenfd past client fd message ↔
      ∀ buf, Possible client 0 (MAXSIZE - 1) (usesUpTo listenfd past client message) buf →
        text 0 buf = text 0 (filled 0 (MAXSIZE - 1) (usesUpTo listenfd past client message)) := by
  constructor
  · rintro isolated buf possible
    -- A possible buffer comes from another history.
    obtain ⟨_, use', ⟨uses', alike, fits', rfl⟩, last, _, rfl⟩ := possible_append.mp possible
    obtain ⟨past', steps, kept, rfl⟩ := history_of_alike fits alike fits'
    obtain ⟨server', performed'⟩ := perform_alike steps rfl performed
    have same := isolated past' steps kept server server' performed performed'
    rw [echoes_filled fits client fd performed nonempty short,
      echoes_filled kept client fd performed' nonempty short] at same
    simp only [List.cons.injEq, Prod.mk.injEq, true_and, and_true] at same
    cases last with
    | foreign self => exact absurd rfl self
    | same =>
      rw [← same, usesUpTo, filled, filled, List.foldl_append]
      rfl
  · intro same past' alike kept server₁ server' performed₁ performed'
    rw [echoes_filled fits client fd performed₁ nonempty short,
      echoes_filled kept client fd performed' nonempty short]
    refine congrArg (fun echo => [(fd, echo)]) (same _ ⟨usesUpTo listenfd past' client message, ?_, ?_, rfl⟩)
    · exact List.rel_append (uses_alike alike) (.cons (.same _) .nil)
    · exact usesUpTo_fit listenfd kept client nonempty short

/-- The echo to a client does not depend on the others exactly if it follows from its own messages
and the order of the events where the text ends that the buffer holds. -/
theorem doRead_isolated_iff (performed : perform (step listenfd) (Server.init listenfd) past = some server)
    (fits : ∀ step ∈ past, step.Fits) (client : Nat) (fd : Int) (nonempty : 0 < message.length)
    (short : message.length ≤ MAXSIZE - 1) :
    EchoIsolated listenfd past client fd message ↔
      KnowsText client 0 (MAXSIZE - 1) (usesUpTo listenfd past client message) := by
  have different : (1 : UInt8) ≠ 0 := by decide
  rw [isolated_iff_possible performed fits client fd nonempty short,
    text_possible_iff different (usesUpTo_fit listenfd fits client nonempty short)]

end

/-! ## Two clients -/

/-- A client is accepted under the descriptor. -/
def connects (clifd : Int) : Step := .event ⟨3, true, 0, some clifd, none⟩

/-- The client behind the descriptor sends `message`. -/
def sends (clifd : Int) (client : Nat) (message : List UInt8) : Step :=
  .event ⟨clifd, true, client, none, some message⟩

/-- Two clients connect and the first one sends five bytes, all before the next batch. -/
def longBefore : List Step := [connects 5, connects 6, .batchDone, sends 5 1 [65, 65, 65, 65, 65]]

theorem longBefore_fits : ∀ step ∈ longBefore, step.Fits := by
  simp [longBefore, connects, sends, Step.Fits, MAXSIZE]

/-- A zero byte of its own ends what the second client is echoed. -/
theorem doRead_isolated_terminated : EchoIsolated 3 longBefore 2 6 [66, 0] := by
  refine (doRead_isolated_iff rfl longBefore_fits 2 6 (by decide) (by decide)).mpr (.inl ?_)
  rw [known, usesUpTo, List.foldl_append]
  exact List.mem_append_left _ (by decide)

/-- Otherwise it is echoed the end of the first one's message. -/
theorem doRead_not_isolated : ¬ ∀ (listenfd : Int) (past : List Step) (server : Server),
    perform (step listenfd) (Server.init listenfd) past = some server → (∀ step ∈ past, step.Fits) →
    ∀ (client : Nat) (fd : Int) (message : List UInt8), 0 < message.length → message.length ≤ MAXSIZE - 1 →
      EchoIsolated listenfd past client fd message := by
  intro claim
  have isolated := claim 3 longBefore _ rfl longBefore_fits 2 6 [66] (by decide) (by decide)
  rw [isolated_iff_possible rfl longBefore_fits 2 6 (by decide) (by decide),
    text_possible_iff (show (1 : UInt8) ≠ 0 by decide)
      (usesUpTo_fit 3 longBefore_fits 2 (by decide) (by decide))] at isolated
  have learned : known 2 0 (MAXSIZE - 1) (usesUpTo 3 longBefore 2 [66]) = [66] := rfl
  rw [KnowsText, learned] at isolated
  exact absurd isolated (by decide)

end KernelLearning.EpollServer
