import KernelLearning.Bytes.Overlay
import Mathlib.Data.List.Forall2
import Mathlib.Data.List.Induction
import Mathlib.Data.List.TakeWhile

/-!
# What is left in a shared text buffer

Several clients send messages into one buffer, each over what the ones before left
there, and now and then the text in the buffer is cleared.  A client that knows
only its own messages and the order of the uses knows a prefix of the buffer:
exactly the buffers with that prefix are possible for it.
-/

namespace KernelLearning.Bytes

/-- A message over a buffer in two parts. -/
theorem overlay_parts {α : Type} {front rest message : List α} {nul : α}
    (fits : message.length ≤ front.length + rest.length) :
    overlay (front ++ rest ++ [nul]) 0 message =
      message ++ front.drop message.length ++ rest.drop (message.length - front.length) ++ [nul] := by
  rw [overlay_at_zero (by simp only [List.length_append]; omega),
    List.drop_append_of_le_length (by simp only [List.length_append]; omega), List.drop_append]
  simp only [List.append_assoc]

variable {α Client : Type} [DecidableEq α] [DecidableEq Client]

/-! ## The text in a buffer -/

/-- The text in a buffer, up to the first `nul`. -/
def text (nul : α) (buf : List α) : List α := buf.takeWhile (· ≠ nul)

/-- The buffer with its text overwritten by `nul`. -/
def clearText (nul : α) (buf : List α) : List α :=
  List.replicate (text nul buf).length nul ++ buf.drop (text nul buf).length

theorem text_cons (nul x : α) (xs : List α) :
    text nul (x :: xs) = if x = nul then [] else x :: text nul xs := by
  by_cases stop : x = nul <;> simp [text, stop]

theorem text_append_of_mem {nul : α} {xs : List α} (member : nul ∈ xs) (ys : List α) :
    text nul (xs ++ ys) = text nul xs := by
  induction xs with
  | nil => cases member
  | cons x xs inductionHypothesis =>
    rw [List.cons_append, text_cons, text_cons]
    by_cases stop : x = nul
    · rw [if_pos stop, if_pos stop]
    · have later : nul ∈ xs := by
        cases List.mem_cons.mp member with
        | inl here => exact absurd here.symm stop
        | inr later => exact later
      rw [inductionHypothesis later]

theorem text_append_of_notMem {nul : α} {xs : List α} (notMember : nul ∉ xs) (ys : List α) :
    text nul (xs ++ ys) = xs ++ text nul ys := by
  refine List.takeWhile_append_of_pos ?_
  intro x member
  have different : x ≠ nul := by
    intro same
    rw [same] at member
    exact notMember member
  simpa using different

theorem clearText_cons (nul x : α) (xs : List α) :
    clearText nul (x :: xs) = nul :: if x = nul then xs else clearText nul xs := by
  by_cases stop : x = nul
  · simp [clearText, text, stop]
  · simp [clearText, text, stop, List.replicate_succ]

@[simp] theorem length_clearText (nul : α) (buf : List α) : (clearText nul buf).length = buf.length := by
  induction buf with
  | nil => rfl
  | cons x xs inductionHypothesis =>
    rw [clearText_cons]
    split
    · rfl
    · rw [List.length_cons, inductionHypothesis, List.length_cons]

theorem clearText_append_of_mem {nul : α} {xs : List α} (member : nul ∈ xs) (ys : List α) :
    clearText nul (xs ++ ys) = clearText nul xs ++ ys := by
  have within : (text nul xs).length ≤ xs.length := (List.takeWhile_sublist _).length_le
  rw [clearText, text_append_of_mem member, List.drop_append_of_le_length within, ← List.append_assoc]
  rfl

theorem clearText_append_of_notMem {nul : α} {xs : List α} (notMember : nul ∉ xs) (ys : List α) :
    clearText nul (xs ++ ys) = List.replicate xs.length nul ++ clearText nul ys := by
  rw [clearText, text_append_of_notMem notMember, List.length_append, List.replicate_add, List.drop_append,
    List.drop_eq_nil_of_le (Nat.le_add_right _ _), Nat.add_sub_cancel_left, List.nil_append, List.append_assoc]
  rfl

/-- The terminator at the end stays. -/
theorem clearText_terminated (nul : α) (xs : List α) :
    ∃ xs', clearText nul (xs ++ [nul]) = xs' ++ [nul] ∧ xs'.length = xs.length := by
  induction xs with
  | nil => exact ⟨[], by simp [clearText, text], rfl⟩
  | cons x xs inductionHypothesis =>
    obtain ⟨xs', cleared, length⟩ := inductionHypothesis
    rw [List.cons_append, clearText_cons]
    split
    · exact ⟨nul :: xs, rfl, rfl⟩
    · exact ⟨nul :: xs', by rw [cleared]; rfl, by rw [List.length_cons, length, List.length_cons]⟩

/-! ## Uses of the buffer -/

/-- A client's message is read into the buffer, or its text is cleared. -/
inductive Usage (Client α : Type) where
  | read (client : Client) (message : List α)
  | clear

def Usage.apply (nul : α) (buf : List α) : Usage Client α → List α
  | .read _ message => overlay buf 0 message
  | .clear => clearText nul buf

/-- A message is not empty, and leaves the last element of the buffer alone. -/
def Usage.Fits (size : Nat) : Usage Client α → Prop
  | .read _ message => 0 < message.length ∧ message.length ≤ size
  | .clear => True

/-- The same use as far as a client can tell. -/
inductive Usage.Alike (client : Client) : Usage Client α → Usage Client α → Prop where
  | same (use : Usage Client α) : Alike client use use
  | foreign {other : Client} (different : other ≠ client) (message message' : List α) :
      Alike client (.read other message) (.read other message')

/-- The buffer, all `nul` at first, after its uses. -/
def filled (nul : α) (size : Nat) (uses : List (Usage Client α)) : List α :=
  uses.foldl (Usage.apply nul) (List.replicate (size + 1) nul)

/-- A buffer that the client cannot tell from the real one. -/
def Possible (client : Client) (nul : α) (size : Nat) (uses : List (Usage Client α)) (buf : List α) : Prop :=
  ∃ uses', List.Forall₂ (Usage.Alike client) uses uses' ∧ (∀ use ∈ uses', use.Fits size) ∧
    filled nul size uses' = buf

/-! ## What a client knows -/

/-- What the client knows of the buffer after a use, from what it knew before.  A clearing that
stops past what it knows leaves one more `nul`. -/
def Usage.learn (client : Client) (nul : α) (size : Nat) (known : List α) : Usage Client α → List α
  | .read other message => if other = client then message ++ known.drop message.length else []
  | .clear => if nul ∈ known then clearText nul known else List.replicate (min size (known.length + 1)) nul

/-- The prefix of the buffer that the client knows. -/
def known (client : Client) (nul : α) (size : Nat) (uses : List (Usage Client α)) : List α :=
  uses.foldl (Usage.learn client nul size) (List.replicate size nul)

theorem length_learn_le {client : Client} {nul : α} {size : Nat} {prior : List α} {use : Usage Client α}
    (fits : use.Fits size) (le : prior.length ≤ size) : (use.learn client nul size prior).length ≤ size := by
  cases use with
  | read other message =>
    simp only [Usage.learn]
    split
    · have := fits.2
      rw [List.length_append, List.length_drop]
      omega
    · exact Nat.zero_le _
  | clear =>
    simp only [Usage.learn]
    split
    · rw [length_clearText]
      exact le
    · rw [List.length_replicate]
      exact Nat.min_le_left _ _

/-- What the client knows after a use is right, whatever the others did. -/
theorem learn_sound {client : Client} {nul : α} {size : Nat} {prior rest : List α} {use use' : Usage Client α}
    (fits : use.Fits size) (fits' : use'.Fits size) (alike : use.Alike client use')
    (length : prior.length + rest.length = size) :
    ∃ rest', use'.apply nul (prior ++ rest ++ [nul]) = use.learn client nul size prior ++ rest' ++ [nul] ∧
      (use.learn client nul size prior).length + rest'.length = size := by
  -- Another client's message leaves nothing known.
  have unknown : ∀ message : List α, message.length ≤ size →
      ∃ rest', overlay (prior ++ rest ++ [nul]) 0 message = [] ++ rest' ++ [nul] ∧
        ([] : List α).length + rest'.length = size := by
    intro message short
    rw [overlay_parts (by omega)]
    refine ⟨message ++ prior.drop message.length ++ rest.drop (message.length - prior.length), rfl, ?_⟩
    simp only [List.length_append, List.length_drop, List.length_nil]
    omega
  cases alike with
  | foreign different message message' =>
    simp only [Usage.learn, if_neg different]
    exact unknown message' fits'.2
  | same =>
    cases use with
    | read other message =>
      have short := fits.2
      by_cases own : other = client
      · simp only [Usage.learn, if_pos own, Usage.apply]
        rw [overlay_parts (by omega)]
        refine ⟨rest.drop (message.length - prior.length), rfl, ?_⟩
        simp only [List.length_append, List.length_drop]
        omega
      · simp only [Usage.learn, if_neg own]
        exact unknown message short
    | clear =>
      by_cases stops : nul ∈ prior
      · simp only [Usage.learn, if_pos stops, Usage.apply]
        refine ⟨rest, ?_, ?_⟩
        · rw [List.append_assoc, clearText_append_of_mem stops, List.append_assoc]
        · rw [length_clearText]
          exact length
      · simp only [Usage.learn, if_neg stops, Usage.apply]
        rw [List.append_assoc, clearText_append_of_notMem stops]
        cases rest with
        | nil =>
          have full : min size (prior.length + 1) = prior.length := by
            rw [List.length_nil] at length
            omega
          exact ⟨[], by simp [full, clearText, text], by simpa [full] using length⟩
        | cons first rest =>
          -- The clearing stops at the first element past what is known, or goes on from there.
          rw [List.length_cons] at length
          have more : min size (prior.length + 1) = prior.length + 1 := by omega
          obtain ⟨rest', cleared, same⟩ := clearText_terminated nul rest
          rw [more, List.cons_append, clearText_cons, cleared, List.length_replicate]
          by_cases here : first = nul
          · refine ⟨rest, ?_, by omega⟩
            rw [if_pos here, List.replicate_succ', List.append_assoc, List.append_assoc]
            rfl
          · refine ⟨rest', ?_, by omega⟩
            rw [if_neg here, List.replicate_succ', List.append_assoc, List.append_assoc]
            rfl

/-- Whatever the client does not know after a use can be there. -/
theorem learn_complete {client : Client} {nul : α} {size : Nat} {prior rest' : List α} {use : Usage Client α}
    (fits : use.Fits size) (le : prior.length ≤ size)
    (length : (use.learn client nul size prior).length + rest'.length = size) :
    ∃ rest use', use.Alike client use' ∧ use'.Fits size ∧ prior.length + rest.length = size ∧
      use'.apply nul (prior ++ rest ++ [nul]) = use.learn client nul size prior ++ rest' ++ [nul] := by
  cases use with
  | read other message =>
    have short := fits.2
    have nonempty := fits.1
    by_cases own : other = client
    · simp only [Usage.learn, if_pos own, List.length_append, List.length_drop] at length ⊢
      -- the message covers the filling
      refine ⟨List.replicate (message.length - prior.length) nul ++ rest', .read other message, .same _, fits, ?_, ?_⟩
      · simp only [List.length_append, List.length_replicate]
        omega
      · simp only [Usage.apply]
        rw [overlay_parts (by simp only [List.length_append, List.length_replicate]; omega),
          List.drop_left' (by simp)]
    · simp only [Usage.learn, if_neg own, List.length_nil, Nat.zero_add] at length ⊢
      -- another client's message can be anything
      refine ⟨List.replicate (size - prior.length) nul, .read other rest', .foreign own _ _,
        ⟨by omega, by omega⟩, ?_, ?_⟩
      · rw [List.length_replicate]
        omega
      · simp only [Usage.apply]
        rw [overlay_parts (by rw [List.length_replicate]; omega), List.drop_eq_nil_of_le (by omega),
          List.drop_eq_nil_of_le (by rw [List.length_replicate]; omega)]
        simp
  | clear =>
    by_cases stops : nul ∈ prior
    · simp only [Usage.learn, if_pos stops, length_clearText] at length ⊢
      refine ⟨rest', .clear, .same _, trivial, length, ?_⟩
      simp only [Usage.apply]
      rw [List.append_assoc, clearText_append_of_mem stops, List.append_assoc]
    · simp only [Usage.learn, if_neg stops, List.length_replicate] at length ⊢
      rcases Nat.lt_or_ge prior.length size with room | full
      · -- the clearing stops right after what is known
        have more : min size (prior.length + 1) = prior.length + 1 := by omega
        rw [more] at length ⊢
        refine ⟨nul :: rest', .clear, .same _, trivial, by rw [List.length_cons]; omega, ?_⟩
        simp only [Usage.apply]
        rw [List.append_assoc, clearText_append_of_notMem stops, List.cons_append, clearText_cons, if_pos rfl,
          List.replicate_succ', List.append_assoc, List.append_assoc]
        rfl
      · have full : min size (prior.length + 1) = prior.length := by omega
        rw [full] at length ⊢
        have nothing : rest' = [] := List.eq_nil_of_length_eq_zero (by omega)
        refine ⟨[], .clear, .same _, trivial, by rw [List.length_nil]; omega, ?_⟩
        simp only [Usage.apply]
        rw [List.append_assoc, clearText_append_of_notMem stops, nothing]
        simp [clearText, text]

/-! ## The buffers that are possible -/

section

variable {client : Client} {nul : α} {size : Nat}

theorem length_known_le {uses : List (Usage Client α)} (fits : ∀ use ∈ uses, use.Fits size) :
    (known client nul size uses).length ≤ size := by
  induction uses using List.reverseRecOn with
  | nil => simp [known]
  | append_singleton uses use inductionHypothesis =>
    simp only [List.mem_append, List.mem_singleton, or_imp, forall_and, forall_eq] at fits
    rw [known, List.foldl_append]
    exact length_learn_le fits.2 (inductionHypothesis fits.1)

omit [DecidableEq Client] in
/-- The last use of a history, and the history before it. -/
theorem possible_append {uses : List (Usage Client α)} {use : Usage Client α} {buf : List α} :
    Possible client nul size (uses ++ [use]) buf ↔
      ∃ before use', Possible client nul size uses before ∧ use.Alike client use' ∧ use'.Fits size ∧
        use'.apply nul before = buf := by
  constructor
  · rintro ⟨all, alike, fits, rfl⟩
    -- the last use is the head of the reversed history
    have reversed := List.forall₂_reverse_iff.mpr alike
    rw [List.reverse_append, List.reverse_singleton, List.singleton_append, List.forall₂_cons_left_iff] at reversed
    obtain ⟨use', earlier, last, rest, split⟩ := reversed
    have all_eq : all = earlier.reverse ++ [use'] := by
      rw [← List.reverse_reverse all, split, List.reverse_cons]
    subst all_eq
    simp only [List.mem_append, List.mem_singleton, or_imp, forall_and, forall_eq] at fits
    refine ⟨_, use', ⟨earlier.reverse, ?_, fits.1, rfl⟩, last, fits.2, ?_⟩
    · rw [← List.forall₂_reverse_iff, List.reverse_reverse]
      exact rest
    · simp only [filled, List.foldl_append]
      rfl
  · rintro ⟨before, use', ⟨earlier, alike, fits, rfl⟩, last, fits', rfl⟩
    -- what comes after the earlier uses is the one use
    refine ⟨earlier ++ [use'], List.rel_append alike (.cons last .nil), ?_, ?_⟩
    · simp only [List.mem_append, List.mem_singleton, or_imp, forall_and, forall_eq]
      exact ⟨fits, fits'⟩
    · rw [filled, List.foldl_append]
      rfl

/-- The possible buffers are those that start with what the client knows. -/
theorem possible_iff {uses : List (Usage Client α)} (fits : ∀ use ∈ uses, use.Fits size) {buf : List α} :
    Possible client nul size uses buf ↔
      ∃ rest, (known client nul size uses).length + rest.length = size ∧
        buf = known client nul size uses ++ rest ++ [nul] := by
  -- the induction adds the last use; what the client knew before it, it knows of the buffer before it
  induction uses using List.reverseRecOn generalizing buf with
  | nil =>
    constructor
    · rintro ⟨all, alike, _, rfl⟩
      obtain rfl := List.forall₂_nil_left_iff.mp alike
      exact ⟨[], by simp [known], by simp [known, filled, List.replicate_succ']⟩
    · rintro ⟨rest, length, rfl⟩
      -- at first the client knows the whole buffer, so nothing is left to choose
      have nothing : rest = [] := List.eq_nil_of_length_eq_zero (by simpa [known] using length)
      refine ⟨[], .nil, by simp, ?_⟩
      simp [nothing, known, filled, List.replicate_succ']
  | append_singleton uses use inductionHypothesis =>
    simp only [List.mem_append, List.mem_singleton, or_imp, forall_and, forall_eq] at fits
    have learned : known client nul size (uses ++ [use]) =
        use.learn client nul size (known client nul size uses) := by
      rw [known, List.foldl_append]
      rfl
    rw [possible_append, learned]
    constructor
    · rintro ⟨before, use', possible, alike, fits', rfl⟩
      obtain ⟨rest, length, rfl⟩ := (inductionHypothesis fits.1).mp possible
      obtain ⟨rest', applied, length'⟩ := learn_sound fits.2 fits' alike length
      exact ⟨rest', length', applied⟩
    · rintro ⟨rest', length', rfl⟩
      obtain ⟨rest, use', alike, fits', length, applied⟩ :=
        learn_complete fits.2 (length_known_le fits.1) length'
      exact ⟨_, use', (inductionHypothesis fits.1).mpr ⟨rest, length, rfl⟩, alike, fits', applied⟩

/-- The client knows the text in the buffer if it knows where the text ends: at a `nul` that it
knows, or at the terminator. -/
def KnowsText (client : Client) (nul : α) (size : Nat) (uses : List (Usage Client α)) : Prop :=
  nul ∈ known client nul size uses ∨ (known client nul size uses).length = size

theorem text_possible_iff {mark : α} (different : mark ≠ nul) {uses : List (Usage Client α)}
    (fits : ∀ use ∈ uses, use.Fits size) :
    (∀ buf, Possible client nul size uses buf → text nul buf = text nul (filled nul size uses)) ↔
      KnowsText client nul size uses := by
  constructor
  · intro same
    by_contra unknown
    simp only [KnowsText, not_or] at unknown
    obtain ⟨unstopped, short⟩ := unknown
    have le : (known client nul size uses).length ≤ size := length_known_le fits
    -- What is not known may be all `nul` or all text.
    have ends : ∀ rest : List α, (known client nul size uses).length + rest.length = size →
        known client nul size uses ++ text nul (rest ++ [nul]) = text nul (filled nul size uses) := by
      intro rest length
      rw [← same _ ((possible_iff fits).mpr ⟨rest, length, rfl⟩), List.append_assoc,
        text_append_of_notMem unstopped]
    have blank := ends (List.replicate (size - (known client nul size uses).length) nul)
      (by rw [List.length_replicate]; omega)
    have full := ends (List.replicate (size - (known client nul size uses).length) mark)
      (by rw [List.length_replicate]; omega)
    have equal := List.append_cancel_left (blank.trans full.symm)
    obtain ⟨count, more⟩ : ∃ count, size - (known client nul size uses).length = count + 1 :=
      ⟨size - (known client nul size uses).length - 1, by omega⟩
    rw [more, List.replicate_succ, List.replicate_succ, List.cons_append, List.cons_append, text_cons,
      text_cons, if_pos rfl, if_neg different] at equal
    cases equal
  · intro knows buf possible
    obtain ⟨rest, length, rfl⟩ := (possible_iff fits).mp possible
    have self : Possible client nul size uses (filled nul size uses) :=
      ⟨uses, List.forall₂_same.mpr fun use _ => .same use, fits, rfl⟩
    obtain ⟨rest', length', real⟩ := (possible_iff fits).mp self
    rw [real]
    cases knows with
    | inl stops =>
      rw [List.append_assoc, text_append_of_mem stops, List.append_assoc, text_append_of_mem stops]
    | inr full =>
      have nothing : rest = [] := List.eq_nil_of_length_eq_zero (by omega)
      have nothing' : rest' = [] := List.eq_nil_of_length_eq_zero (by omega)
      rw [nothing, nothing']

end

end KernelLearning.Bytes
