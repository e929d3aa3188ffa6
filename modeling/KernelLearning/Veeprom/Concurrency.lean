import KernelLearning.Interaction.Parallel
import KernelLearning.Veeprom.Emmc

/-!
# Two processes writing different fields

Nothing locks the device.  A write to one field reads a window, patches it and
writes the whole window back, so what is left of the other field depends on whether
its process had stored it before the window was read.
-/

namespace KernelLearning.Veeprom

open KernelLearning.Bytes KernelLearning.CSemantics KernelLearning.Interaction
open KernelLearning.Interaction.Program

/-! ## The four calls of a write inside one sector -/

section
variable (statics : Statics) (offset : Int) (data : List Byte)

/-- The buffer that goes back to the device after `chunk` was read. -/
def patchedBuffer (chunk : Chunk bufferSize) : Buffer :=
  ⟨overlay (Buffer.zero.fill chunk).bytes offset.toNat data, by
    rw [length_overlay, (Buffer.zero.fill chunk).length_eq]⟩

def storing (buffer : Buffer) : Code (Int × Statics) := do
  let written ← Call.write descriptor buffer.bytes
  return (if written < 0 then -1 else 0, statics.withBuffer buffer)

def seekingBack (buffer : Buffer) : Code (Int × Statics) := do
  let found ← Call.lseek descriptor 0
  if found < 0 then return (-1, statics.withBuffer buffer)
  storing statics buffer

def loading : Code (Int × Statics) := do
  let answer ← Call.read descriptor
  match answer with
  | none => return (-1, statics.withBuffer .zero)
  | some chunk => seekingBack statics (patchedBuffer offset data chunk)

def seeking : Code (Int × Statics) := do
  let found ← Call.lseek descriptor 0
  if found < 0 then return (-1, statics.withBuffer .zero)
  loading statics offset data

end

section
variable {statics : Statics}

theorem seekSector_first (opened : statics.fd = descriptor) :
    seekSector statics 0 0 = Call.lseek descriptor 0 := by
  unfold seekSector
  rw [opened]
  rfl

theorem loadSector_first (opened : statics.fd = descriptor) :
    loadSector statics 0 0 = (do
      let found ← Call.lseek descriptor 0
      if found < 0 then return (false, statics.withBuffer .zero)
      let answer ← Call.read descriptor
      match answer with
      | none => return (false, statics.withBuffer .zero)
      | some chunk => return (true, statics.withBuffer (Buffer.zero.fill chunk))) := by
  unfold loadSector
  simp only [Statics.withBuffer_fd, Statics.withBuffer_buffer, Statics.withBuffer_withBuffer, opened]
  exact congrArg (· >>= _) (seekSector_first ((Statics.withBuffer_fd _ _).trans opened))

theorem storeSector_first (opened : statics.fd = descriptor) :
    storeSector statics 0 0 = (do
      let found ← Call.lseek descriptor 0
      if found < 0 then return false
      let written ← Call.write descriptor statics.buffer.bytes
      return !decide (written < 0)) := by
  unfold storeSector
  rw [seekSector_first opened, opened]

end

/-- The code of a write inside the first sector. -/
theorem veepromWrite_eq_seeking {host : Host} {statics : Statics} {offset size : Nat} {buf : List Byte}
    (mode : getBootMode host = .emmc) (bootmode : statics.bootmode = .emmc)
    (opened : statics.fd = descriptor) (start : statics.startSector = 0) (last : statics.endSector = 0)
    (nonempty : 0 < size) (supply : size ≤ buf.length) (inside : offset + size ≤ 512) :
    veepromWrite host statics offset buf size = seeking statics offset (buf.take size) := by
  have request : InSectors statics offset size := by
    constructor <;> omega
  have sweep := request.sweep
  -- the request lies in the first sector, so the loop has one turn
  have spanned : sectorSpan statics offset size = (0, 1) := by
    obtain ⟨left, count, _⟩ := request.sectors (by omega)
    apply Prod.ext
    · rw [left]
      unfold firstSector devicePosition
      rw [start]
      omega
    · rw [count]
      unfold firstSector lastSector devicePosition
      rw [start]
      omega
  rw [spanned] at sweep
  have split : splitSector statics 0 0 offset size = ((offset : Int), (size : Int)) := by
    refine sweep.split.trans ?_
    unfold operateCount innerOffset
    rw [start]
    apply Prod.ext <;> dsimp only <;> omega
  have erase : (statics.bootmode == .spinor) = false := by rw [bootmode]; rfl
  have source : callerRead buf 0 size = .ok (buf.take size) := by
    unfold callerRead
    rw [if_pos (by omega)]
    rfl
  rw [veepromWrite_of_valid (by rw [mode]; decide) request.valid, spanned, erase]
  unfold updateSectors updateSector seeking loading
  rw [loadSector_first opened]
  simp only [bind_assoc]
  -- both sides make the same calls, and go on alike for each answer
  refine congrArg (Call.lseek descriptor 0 >>= ·) (funext fun found => ?_)
  by_cases negative : found < 0
  · simp only [if_pos negative]
    rfl
  simp only [if_neg negative, bind_assoc]
  refine congrArg (Call.read descriptor >>= ·) (funext fun answer => ?_)
  cases answer with
  | none => rfl
  | some chunk =>
    have copied : (Buffer.zero.fill chunk).copyIn offset size (.ok (buf.take size)) =
        .ok (patchedBuffer offset (buf.take size) chunk) := by
      exact if_pos (Buffer.inRange_of_le (by omega) (by omega) (by omega))
    have noErase : eraseBlock false (statics.withBuffer (Buffer.zero.fill chunk)) = .done () := rfl
    simp only [pure_eq, done_bind, Bool.not_true, Bool.false_eq_true, if_false, splitSector_withBuffer, split,
      Statics.withBuffer_buffer, Statics.withBuffer_withBuffer, source, copied, attempt_ok, noErase]
    unfold seekingBack storing
    rw [storeSector_first ((Statics.withBuffer_fd _ _).trans opened)]
    simp only [bind_assoc]
    refine congrArg (Call.lseek descriptor 0 >>= ·) (funext fun found => ?_)
    by_cases negative : found < 0
    · simp only [if_pos negative]
      rfl
    simp only [if_neg negative, bind_assoc, Statics.withBuffer_buffer]
    refine congrArg (Call.write descriptor (patchedBuffer offset (buf.take size) chunk).bytes >>= ·)
      (funext fun written => ?_)
    by_cases failed : written < 0
    · simp [failed]
    · simp [failed, updateSectors]

/-! ## What a process has seen -/

/-- A field of the veeprom and the bytes a process stores in it. -/
structure Field where
  offset : Nat
  data : List Byte
  inside : offset + data.length ≤ 512

/-- The two effects on the device that matter. -/
inductive Touch where
  | loads
  | stores
  deriving DecidableEq, Repr

def touchOf : Sys → Option Touch
  | .read _ _ => some .loads
  | .write _ _ => some .stores
  | _ => none

/-- The reads and writes of an interleaving, in order. -/
def touches (trace : List (Side × Sys)) : List (Side × Touch) :=
  trace.filterMap fun step => (touchOf step.2).map (step.1, ·)

/-- The reads and writes of one process. -/
def touchesOf (side : Side) (order : List (Side × Touch)) : List Touch :=
  (order.filter (·.1 = side)).map (·.2)

/-- Which new values the device holds, and which of them were there when a process read
its window. -/
structure Sight where
  present : Side → Bool
  seen : Side → Side → Bool

def Sight.touch (sight : Sight) : Side × Touch → Sight
  | (side, .loads) => { sight with seen := Function.update sight.seen side sight.present }
  | (side, .stores) => { sight with present := Function.update (sight.seen side) side true }

def sightOf (order : List (Side × Touch)) : Sight :=
  order.foldl Sight.touch ⟨fun _ => false, fun _ _ => false⟩

/-- The device bytes when the fields in `present` have their new values. -/
def contents (original : List Byte) (fields : Side → Field) (present : Side → Bool) : List Byte :=
  let withLeft := if present .left then overlay original (fields .left).offset (fields .left).data else original
  if present .right then overlay withLeft (fields .right).offset (fields .right).data else withLeft

section
variable {original : List Byte} {fields : Side → Field} {present seen : Side → Bool}

@[simp] theorem touches_append (trace : List (Side × Sys)) (side : Side) (call : Sys) :
    touches (trace ++ [(side, call)]) = touches trace ++ ((touchOf call).map (side, ·)).toList := by
  simp only [touches, List.filterMap_append, List.filterMap_cons, List.filterMap_nil]
  cases touchOf call <;> rfl

@[simp] theorem touchesOf_append_self (side : Side) (order : List (Side × Touch)) (touch : Touch) :
    touchesOf side (order ++ [(side, touch)]) = touchesOf side order ++ [touch] := by
  simp [touchesOf]

theorem touchesOf_append_other {side other : Side} (differ : other ≠ side)
    (order : List (Side × Touch)) (touch : Touch) :
    touchesOf other (order ++ [(side, touch)]) = touchesOf other order := by
  simp [touchesOf, differ.symm]

@[simp] theorem sightOf_append (order : List (Side × Touch)) (event : Side × Touch) :
    sightOf (order ++ [event]) = (sightOf order).touch event := by
  simp [sightOf]

@[simp] theorem length_contents : (contents original fields present).length = original.length := by
  unfold contents
  cases present .left <;> cases present .right <;> simp

theorem getElem?_contents_outside {index : Nat}
    (outside : ∀ side, index < (fields side).offset ∨
      (fields side).offset + (fields side).data.length ≤ index) :
    (contents original fields present)[index]? = original[index]? := by
  unfold contents
  cases present .left <;> cases present .right <;> simp only [Bool.false_eq_true, if_true, if_false] <;>
    simp only [getElem?_overlay_outside (outside .left), getElem?_overlay_outside (outside .right)]

/-- Storing a field adds its new value. -/
theorem overlay_contents (apart : (fields .left).offset + (fields .left).data.length ≤ (fields .right).offset)
    (side : Side) :
    overlay (contents original fields present) (fields side).offset (fields side).data =
      contents original fields (Function.update present side true) := by
  have again : ∀ bytes, overlay (overlay bytes (fields side).offset (fields side).data)
      (fields side).offset (fields side).data = overlay bytes (fields side).offset (fields side).data :=
    fun _ => overlay_overlay_of_length_le (Nat.le_refl _)
  have swap : ∀ bytes, overlay (overlay bytes (fields .right).offset (fields .right).data)
      (fields .left).offset (fields .left).data =
        overlay (overlay bytes (fields .left).offset (fields .left).data)
          (fields .right).offset (fields .right).data := fun _ => (overlay_comm apart).symm
  unfold contents
  cases side with
  | left =>
    cases leftPresent : present .left <;> cases rightPresent : present .right <;>
      simp [Function.update, rightPresent, again, swap]
  | right =>
    cases present .right <;> simp [Function.update, again]

/-- What a process writes back: the window it read, with its own field in it. -/
def image (bytes : List Byte) (field : Field) : List Byte :=
  overlay (load 2048 0 (window bytes 0 2048)) field.offset field.data

/-- Writing back the image of an earlier state restores that state, with the field. -/
theorem overlay_image (apart : (fields .left).offset + (fields .left).data.length ≤ (fields .right).offset)
    (side : Side) :
    overlay (contents original fields present) 0 (image (contents original fields seen) (fields side)) =
      contents original fields (Function.update seen side true) := by
  have small := (fields side).inside
  have length : (image (contents original fields seen) (fields side)).length = 2048 := by
    rw [image, length_overlay, length_load]
  have replaced : overlay (contents original fields present) 0
      (image (contents original fields seen) (fields side)) =
        overlay (contents original fields seen) 0 (image (contents original fields seen) (fields side)) := by
    apply List.ext_getElem?
    intro index
    by_cases beyond : 2048 ≤ index
    · rw [getElem?_overlay_outside (.inr (by omega)), getElem?_overlay_outside (.inr (by omega))]
      have outside : ∀ side, index < (fields side).offset ∨
          (fields side).offset + (fields side).data.length ≤ index := by
        intro side
        have small := (fields side).inside
        omega
      rw [getElem?_contents_outside outside, getElem?_contents_outside outside]
    by_cases inside : index < original.length
    · rw [getElem?_overlay_inside (by omega) (by omega) (by simpa using inside),
        getElem?_overlay_inside (by omega) (by omega) (by simpa using inside)]
    · rw [List.getElem?_eq_none (by simpa using inside), List.getElem?_eq_none (by simpa using inside)]
  rw [replaced, image]
  refine (combineAt_load_window (fun _ => rfl) _ _ _ _ _ _ (by omega)).trans ?_
  rw [Nat.zero_add]
  exact overlay_contents apart side

end

/-! ## The stages of a process -/

theorem patchedBuffer_transfer (device : Device) (field : Field) :
    (patchedBuffer field.offset field.data (device.transfer 0 bufferSize)).bytes =
      image device.bytes field := by
  have loaded := loadedBuffer_bytes device 0
  unfold loadedBuffer at loaded
  unfold patchedBuffer
  simp only [loaded, Int.toNat_natCast, image]

theorem store_holding {device : Device} (block : device.medium = .block) (bytes data : List Byte) :
    (device.holding bytes).store 0 data =
      (((min data.length (bytes.length - 0) : Nat) : Int), device.holding (overlay bytes 0 data)) := by
  unfold Device.store Device.holding
  simp only [block]
  rfl

/-- How far a process is, with the offset of its descriptor and what it has done to the
device so far; `bytes` is what it saw when it read. -/
inductive Stage (statics : Statics) (field : Field) (bytes : List Byte) :
    Code (Int × Statics) → Option Nat → List Touch → Prop where
  | seeking (position : Nat) :
      Stage statics field bytes (seeking statics field.offset field.data) (some position) []
  | loading : Stage statics field bytes (loading statics field.offset field.data) (some 0) []
  | seekingBack (buffer : Buffer) (position : Nat) (loaded : buffer.bytes = image bytes field) :
      Stage statics field bytes (seekingBack statics buffer) (some position) [.loads]
  | storing (buffer : Buffer) (loaded : buffer.bytes = image bytes field) :
      Stage statics field bytes (storing statics buffer) (some 0) [.loads]
  | finished (statics' : Statics) (offset : Option Nat) :
      Stage statics field bytes (.done (0, statics')) offset [.loads, .stores]

theorem Stage.of_done {statics : Statics} {field : Field} {bytes : List Byte}
    {program : Code (Int × Statics)} {offset : Option Nat} {order : List Touch} {result : Int × Statics}
    (stage : Stage statics field bytes program offset order) (finished : program = .done result) :
    (∃ statics', program = .done (0, statics')) ∧ order = [.loads, .stores] := by
  cases stage with
  | seeking position => cases finished
  | loading => cases finished
  | seekingBack buffer position loaded => cases finished
  | storing buffer loaded => cases finished
  | finished statics' offset => exact ⟨⟨statics', rfl⟩, rfl⟩

abbrev Processes : Type := Pair Sys Sys.Res Fault (Int × Statics) Device (Option Nat)

/-- The device holds the new values that the order of reads and writes so far leaves in
it, and each process is at some stage of its four calls. -/
structure Shares (device : Device) (statics : Side → Statics) (fields : Side → Field)
    (trace : List (Side × Sys)) (pair : Processes) : Prop where
  shared : pair.shared =
    device.holding (contents device.bytes fields (sightOf (touches trace)).present)
  stages : ∀ side, Stage (statics side) (fields side)
    (contents device.bytes fields ((sightOf (touches trace)).seen side))
    (pair.program side) (pair.own side) (touchesOf side (touches trace))

section
variable {device : Device} {statics : Side → Statics} {fields : Side → Field}
  {trace : List (Side × Sys)} {pair : Processes}

/-- A step that touches nothing moves its process to the next stage. -/
theorem Shares.step_untouched (shares : Shares device statics fields trace pair) {side : Side} {call : Sys}
    {next : Sys.Res call → Code (Int × Statics)} (untouched : touchOf call = none)
    (sameDevice : (answer call (pair.shared, pair.own side)).2.1 = pair.shared)
    (stage : Stage (statics side) (fields side)
      (contents device.bytes fields ((sightOf (touches trace)).seen side))
      (next (answer call (pair.shared, pair.own side)).1) (answer call (pair.shared, pair.own side)).2.2
      (touchesOf side (touches trace))) :
    Shares device statics fields (trace ++ [(side, call)]) (pair.advance answer side call next) := by
  have order : touches (trace ++ [(side, call)]) = touches trace := by
    rw [touches_append, untouched]
    exact List.append_nil _
  constructor
  · rw [order]
    exact sameDevice.trans shares.shared
  · intro current
    rw [order]
    unfold Pair.advance
    by_cases here : current = side
    · subst here
      simpa using stage
    · simpa [Function.update_of_ne here] using shares.stages current

/-- The read of a process takes its window. -/
theorem Shares.step_loads (shares : Shares device statics fields trace pair) {side : Side} {fd : Int}
    {count : Nat} {next : Sys.Res (.read fd count) → Code (Int × Statics)}
    (sameDevice : (answer (.read fd count) (pair.shared, pair.own side)).2.1 = pair.shared)
    (stage : Stage (statics side) (fields side)
      (contents device.bytes fields (sightOf (touches trace)).present)
      (next (answer (.read fd count) (pair.shared, pair.own side)).1)
      (answer (.read fd count) (pair.shared, pair.own side)).2.2
      (touchesOf side (touches trace) ++ [.loads])) :
    Shares device statics fields (trace ++ [(side, .read fd count)])
      (pair.advance answer side (.read fd count) next) := by
  have order : touches (trace ++ [(side, .read fd count)]) = touches trace ++ [(side, .loads)] :=
    touches_append _ _ _
  constructor
  · rw [order, sightOf_append]
    exact sameDevice.trans shares.shared
  · intro current
    rw [order, sightOf_append]
    unfold Pair.advance Sight.touch
    by_cases here : current = side
    · subst here
      simpa using stage
    · rw [touchesOf_append_other here]
      simpa [Function.update_of_ne here] using shares.stages current

/-- The write of a process replaces what the device holds. -/
theorem Shares.step_stores (shares : Shares device statics fields trace pair) {side : Side} {fd : Int}
    {data : List Byte} {next : Sys.Res (.write fd data) → Code (Int × Statics)}
    (stored : (answer (.write fd data) (pair.shared, pair.own side)).2.1 =
      device.holding (contents device.bytes fields
        (Function.update ((sightOf (touches trace)).seen side) side true)))
    (stage : ∀ bytes, Stage (statics side) (fields side) bytes
      (next (answer (.write fd data) (pair.shared, pair.own side)).1)
      (answer (.write fd data) (pair.shared, pair.own side)).2.2
      (touchesOf side (touches trace) ++ [.stores])) :
    Shares device statics fields (trace ++ [(side, .write fd data)])
      (pair.advance answer side (.write fd data) next) := by
  have order : touches (trace ++ [(side, .write fd data)]) = touches trace ++ [(side, .stores)] :=
    touches_append _ _ _
  constructor
  · rw [order, sightOf_append]
    exact stored
  · intro current
    rw [order, sightOf_append]
    unfold Pair.advance Sight.touch
    by_cases here : current = side
    · subst here
      simpa using stage _
    · rw [touchesOf_append_other here]
      simpa [Function.update_of_ne here] using shares.stages current

theorem Shares.step (apart : (fields .left).offset + (fields .left).data.length ≤ (fields .right).offset)
    (block : device.medium = .block) (shares : Shares device statics fields trace pair) {side : Side}
    {call : Sys} {next : Sys.Res call → Code (Int × Statics)}
    (waiting : pair.program side = .call call next) :
    Shares device statics fields (trace ++ [(side, call)]) (pair.advance answer side call next) := by
  have stage := shares.stages side
  generalize orderEq : touchesOf side (touches trace) = order at stage
  generalize ownEq : pair.own side = own at stage
  generalize pair.program side = program at stage waiting
  cases stage with
  | seeking position =>
    cases waiting
    apply shares.step_untouched rfl
    · simp [answer, ownEq]
    · rw [orderEq, ownEq]
      exact .loading
  | loading =>
    cases waiting
    apply shares.step_loads
    · simp [answer, ownEq]
    · rw [orderEq, ownEq, shares.shared]
      exact .seekingBack (patchedBuffer _ _ _) _ (patchedBuffer_transfer _ _)
  | seekingBack buffer position loaded =>
    cases waiting
    apply shares.step_untouched rfl
    · simp [answer, ownEq]
    · rw [orderEq, ownEq]
      exact .storing buffer loaded
  | storing buffer loaded =>
    cases waiting
    -- the buffer is the image this process read with its field in it: storing it undoes what came between
    have replaced : overlay (contents device.bytes fields (sightOf (touches trace)).present) 0 buffer.bytes =
        contents device.bytes fields (Function.update ((sightOf (touches trace)).seen side) side true) := by
      rw [loaded]
      exact overlay_image apart side
    generalize countEq : min buffer.bytes.length (device.bytes.length - 0) = count
    have written : answer (.write descriptor buffer.bytes) (pair.shared, pair.own side) = ((count : Int),
        (device.holding (contents device.bytes fields
          (Function.update ((sightOf (touches trace)).seen side) side true)), some (0 + count))) := by
      rw [ownEq, shares.shared]
      simp only [answer, store_holding block, if_true, length_contents, replaced, countEq, Int.toNat_natCast]
    apply shares.step_stores
    · rw [written]
    · intro bytes
      rw [orderEq, written]
      change Stage _ _ _ (.done (if (count : Int) < 0 then -1 else 0, _)) _ _
      rw [if_neg (by omega)]
      exact .finished _ _
  | finished statics' offset => cases waiting

end

/-! ## What an order of reads and writes leaves -/

/-- The new value of a field is on the device at the end: its process wrote last, or the
other process read after it wrote. -/
def survives (order : List (Side × Touch)) (side : Side) : Bool :=
  decide ([(side.other, .stores), (side, .stores)].Sublist order ∨
    [(side, .stores), (side.other, .loads)].Sublist order)

/-- Both processes have read and written. -/
def Complete (order : List (Side × Touch)) : Prop :=
  ∀ side, touchesOf side order = [.loads, .stores]

/-- The six orders in which both processes can have read and written. -/
def completeOrders : List (List (Side × Touch)) :=
  [[(.left, .loads), (.left, .stores), (.right, .loads), (.right, .stores)],
    [(.left, .loads), (.right, .loads), (.left, .stores), (.right, .stores)],
    [(.left, .loads), (.right, .loads), (.right, .stores), (.left, .stores)],
    [(.right, .loads), (.left, .loads), (.left, .stores), (.right, .stores)],
    [(.right, .loads), (.left, .loads), (.right, .stores), (.left, .stores)],
    [(.right, .loads), (.right, .stores), (.left, .loads), (.left, .stores)]]

section
variable {order : List (Side × Touch)}

theorem filter_side (side : Side) (order : List (Side × Touch)) :
    order.filter (·.1 = side) = (touchesOf side order).map (side, ·) := by
  induction order with
  | nil => rfl
  | cons event order inductionHypothesis =>
    obtain ⟨side', touch⟩ := event
    by_cases here : side' = side
    · simpa [touchesOf, here] using inductionHypothesis
    · simpa [touchesOf, here] using inductionHypothesis

theorem Complete.mem_completeOrders (complete : Complete order) : order ∈ completeOrders := by
  have merged := mem_merges_filter (fun event => decide (event.1 = Side.left)) order
  have others : (order.filter fun event => !decide (event.1 = Side.left)) =
      order.filter fun event => decide (event.1 = Side.right) := by
    apply List.filter_congr
    rintro ⟨_ | _, _⟩ _ <;> rfl
  rw [others, filter_side, filter_side, complete .left, complete .right] at merged
  simpa [merges, completeOrders] using merged

theorem Complete.present_eq_survives (complete : Complete order) (side : Side) :
    (sightOf order).present side = survives order side := by
  have all : ∀ order ∈ completeOrders, (sightOf order).present side = survives order side := by
    cases side <;> decide
  exact all order complete.mem_completeOrders

theorem Complete.some_survives (complete : Complete order) : ∃ side, survives order side = true := by
  have all : ∀ order ∈ completeOrders,
      survives order .left = true ∨ survives order .right = true := by decide
  exact Side.exists_iff.mpr (all order complete.mem_completeOrders)

theorem Complete.both_survive_iff (complete : Complete order) :
    (∀ side, survives order side = true) ↔
      ∃ side, [(side, .stores), (side.other, .loads)].Sublist order := by
  have all : ∀ order ∈ completeOrders,
      (survives order .left = true ∧ survives order .right = true ↔
        [(Side.left, Touch.stores), (.right, .loads)].Sublist order ∨
          [(Side.right, Touch.stores), (.left, .loads)].Sublist order) := by decide
  rw [Side.forall_iff, Side.exists_iff]
  exact all order complete.mem_completeOrders

end

/-! ## The writes of `updateflag_set` and `resetreason_write` -/

theorem updateFlag_inside (setFlag : Byte) : veepromUpdateFlagOffset + [setFlag].length ≤ 512 := by
  simp [veepromUpdateFlagOffset]

theorem resetReason_inside (para : List Byte) :
    veepromResetReasonOffset + (para.take veepromResetReasonSize).length ≤ 512 := by
  simp only [List.length_take, veepromResetReasonOffset, veepromResetReasonSize]
  omega

/-- The update flag on the left, the reset reason on the right. -/
def toolFields (setFlag : Byte) (para : List Byte) : Side → Field
  | .left => ⟨veepromUpdateFlagOffset, [setFlag], updateFlag_inside setFlag⟩
  | .right => ⟨veepromResetReasonOffset, para.take veepromResetReasonSize, resetReason_inside para⟩

/-- Two processes with the device open, each about to write its field. -/
def toolWrites (host : Host) (statics : Side → Statics) (device : Device) (positions : Side → Nat)
    (setFlag : Byte) (para : List Byte) : Processes where
  shared := device
  own := fun side => some (positions side)
  program
    | .left => veepromWrite host (statics .left) veepromUpdateFlagOffset [setFlag] veepromUpdateFlagSize
    | .right => veepromWrite host (statics .right) veepromResetReasonOffset para veepromResetReasonSize

/-- A process after `veeprom_init` on an eMMC partition. -/
structure ToolReady (host : Host) (statics : Statics) (world : World) : Prop
    extends EmmcOpened host statics world where
  start_eq : statics.startSector = veepromStartSector
  end_eq : statics.endSector = veepromEndSector

section
variable {host : Host} {device : Device} {statics : Side → Statics} {positions : Side → Nat}
  {setFlag : Byte} {para : List Byte} {trace : List (Side × Sys)} {last : Processes}

theorem toolWrites_program (setFlag : Byte)
    (ready : ∀ side, ToolReady host (statics side) (device, some (positions side)))
    (supply : veepromResetReasonSize ≤ para.length) (side : Side) :
    (toolWrites host statics device positions setFlag para).program side =
      seeking (statics side) (toolFields setFlag para side).offset (toolFields setFlag para side).data := by
  have sectors := ready side
  cases side with
  | left =>
    exact veepromWrite_eq_seeking sectors.mode sectors.bootmode sectors.opened sectors.start_eq
      sectors.end_eq (by decide) (Nat.le_refl 1) (by decide)
  | right =>
    exact veepromWrite_eq_seeking sectors.mode sectors.bootmode sectors.opened sectors.start_eq
      sectors.end_eq (by decide) supply (by decide)

theorem toolWrites_shares (ready : ∀ side, ToolReady host (statics side) (device, some (positions side)))
    (supply : veepromResetReasonSize ≤ para.length) :
    Shares device statics (toolFields setFlag para) []
      (toolWrites host statics device positions setFlag para) where
  shared := rfl
  stages := by
    intro side
    rw [toolWrites_program setFlag ready supply]
    exact .seeking _

theorem toolFields_apart : (toolFields setFlag para .left).offset +
    (toolFields setFlag para .left).data.length ≤ (toolFields setFlag para .right).offset :=
  Nat.le_refl 9

theorem interleaved_shares (ready : ∀ side, ToolReady host (statics side) (device, some (positions side)))
    (supply : veepromResetReasonSize ≤ para.length)
    (interleaving : Interleaving answer (toolWrites host statics device positions setFlag para) trace last) :
    Shares device statics (toolFields setFlag para) trace last :=
  interleaving.invariant (toolWrites_shares ready supply) fun _ _ _ _ _ shares waiting =>
    shares.step toolFields_apart (ready .left).block waiting

/-- Whatever the order of the system calls, both writes return 0 and the device keeps
every byte outside the two fields.  A field has its new value if its process wrote last
or the other one read after that; one of them always does, and both do exactly when one
process had written before the other read. -/
theorem interleaved_field_writes
    (ready : ∀ side, ToolReady host (statics side) (device, some (positions side)))
    (supply : veepromResetReasonSize ≤ para.length)
    (interleaving : Interleaving answer (toolWrites host statics device positions setFlag para) trace last)
    (returned : ∀ side, ∃ result, last.program side = .done result) :
    (∀ side, ∃ statics', last.program side = .done (0, statics')) ∧
      last.shared = device.holding
        (contents device.bytes (toolFields setFlag para) (survives (touches trace))) ∧
      (∃ side, survives (touches trace) side = true) ∧
      ((∀ side, survives (touches trace) side = true) ↔
        ∃ side, [(side, .stores), (side.other, .loads)].Sublist (touches trace)) := by
  have shares := interleaved_shares ready supply interleaving
  have ended : ∀ side, (∃ statics', last.program side = .done (0, statics')) ∧
      touchesOf side (touches trace) = [.loads, .stores] := by
    intro side
    obtain ⟨result, finished⟩ := returned side
    exact (shares.stages side).of_done finished
  have complete : Complete (touches trace) := fun side => (ended side).2
  refine ⟨fun side => (ended side).1, ?_, complete.some_survives, complete.both_survive_iff⟩
  rw [shares.shared, funext complete.present_eq_survives]

end

/-! ## A lost update -/

section
variable {init pair : Processes} {trace : List (Side × Sys)} {statics : Statics}

/-- A process seeks and reads while the other one waits. -/
theorem load_turn (interleaving : Interleaving answer init trace pair) (side : Side)
    {offset : Int} {data : List Byte} {position : Nat} (here : pair.own side = some position)
    (waiting : pair.program side = seeking statics offset data) :
    ∃ pair' buffer, Interleaving answer init
        (trace ++ [(side, .lseek descriptor 0)] ++ [(side, .read descriptor bufferSize)]) pair' ∧
      pair'.program side = seekingBack statics buffer ∧ (∃ position', pair'.own side = some position') ∧
      pair'.program side.other = pair.program side.other ∧ pair'.own side.other = pair.own side.other := by
  obtain ⟨middle, sought, program, own, waits, stays⟩ := interleaving.turn waiting
  have found : answer (.lseek descriptor 0) (pair.shared, pair.own side) = (0, (pair.shared, some 0)) := by
    rw [here]
    rfl
  rw [found] at program own
  obtain ⟨last, loaded, program', own', waits', stays'⟩ :=
    sought.turn (show middle.program side = loading statics offset data from program)
  have read : answer (.read descriptor bufferSize) (middle.shared, middle.own side) =
      (some (middle.shared.transfer 0 bufferSize), (middle.shared,
        some (0 + (middle.shared.transfer 0 bufferSize).val.length))) := by
    rw [own]
    rfl
  rw [read] at program' own'
  exact ⟨last, _, loaded, program', ⟨_, own'⟩, waits'.trans waits, stays'.trans stays⟩

/-- A process seeks back and writes while the other one waits. -/
theorem store_turn (interleaving : Interleaving answer init trace pair) (side : Side)
    {buffer : Buffer} {position : Nat} (here : pair.own side = some position)
    (waiting : pair.program side = seekingBack statics buffer) :
    ∃ pair', Interleaving answer init
        (trace ++ [(side, .lseek descriptor 0)] ++ [(side, .write descriptor buffer.bytes)]) pair' ∧
      (∃ result, pair'.program side = .done result) ∧
      pair'.program side.other = pair.program side.other ∧ pair'.own side.other = pair.own side.other := by
  obtain ⟨middle, sought, program, own, waits, stays⟩ := interleaving.turn waiting
  have found : answer (.lseek descriptor 0) (pair.shared, pair.own side) = (0, (pair.shared, some 0)) := by
    rw [here]
    rfl
  rw [found] at program own
  obtain ⟨last, stored, program', _, waits', stays'⟩ :=
    sought.turn (show middle.program side = storing statics buffer from program)
  exact ⟨last, stored, ⟨_, program'⟩, waits'.trans waits, stays'.trans stays⟩

variable {host : Host} {device : Device} {statics : Side → Statics} {positions : Side → Nat}
  {setFlag : Byte} {para : List Byte}

/-- Both processes can read before either of them writes. -/
theorem exists_crossing (setFlag : Byte) (para : List Byte)
    (ready : ∀ side, ToolReady host (statics side) (device, some (positions side)))
    (supply : veepromResetReasonSize ≤ para.length) :
    ∃ trace last, Interleaving answer (toolWrites host statics device positions setFlag para) trace last ∧
      (∀ side, ∃ result, last.program side = .done result) ∧
      touches trace = [(.left, .loads), (.right, .loads), (.right, .stores), (.left, .stores)] := by
  have program := toolWrites_program setFlag ready supply
  obtain ⟨first, leftBuffer, reads, leftReady, ⟨_, leftOpen⟩, waits, stays⟩ :=
    load_turn (.start) .left rfl (program .left)
  obtain ⟨second, rightBuffer, reads, rightReady, ⟨_, rightOpen⟩, waits', stays'⟩ :=
    load_turn reads .right stays (waits.trans (program .right))
  obtain ⟨third, stores, rightDone, waits'', stays''⟩ := store_turn reads .right rightOpen rightReady
  obtain ⟨fourth, stores, leftDone, waits, _⟩ := store_turn stores .left
    ((stays''.trans stays').trans leftOpen) ((waits''.trans waits').trans leftReady)
  refine ⟨_, fourth, stores, ?_, by simp [touches, touchOf]⟩
  rintro (_ | _)
  · exact leftDone
  · obtain ⟨result, finished⟩ := rightDone
    exact ⟨result, waits.trans finished⟩

end

/-- Two processes on a device of 17 zero bytes, one of them about to write `normal`. -/
def crossing : Processes :=
  toolWrites emmcHost (fun _ => emmcStatics 0 0) (emmcDevice (List.replicate 17 0)) (fun _ => 0) 1
    [110, 111, 114, 109, 97, 108, 0, 0]

theorem toolReady_emmcDevice (bytes : List Byte) (position : Nat) :
    ToolReady emmcHost (emmcStatics 0 0) (emmcDevice bytes, some position) where
  toEmmcOpened := emmcOpened_emmcDevice _ _ _ _
  start_eq := rfl
  end_eq := rfl

theorem interleaved_field_writes_crossing :
    ∃ trace last, Interleaving answer crossing trace last ∧
      (∀ side, ∃ statics', last.program side = .done (0, statics')) ∧
      ¬ ∀ side, survives (touches trace) side = true := by
  have ready := fun _ : Side => toolReady_emmcDevice (List.replicate 17 0) 0
  obtain ⟨trace, last, interleaving, finished, order⟩ :=
    exists_crossing 1 [110, 111, 114, 109, 97, 108, 0, 0] ready (by decide)
  obtain ⟨returned, _, _, both⟩ := interleaved_field_writes ready (by decide) interleaving finished
  refine ⟨trace, last, interleaving, returned, ?_⟩
  rw [both, order, Side.exists_iff]
  decide

/-- The reset reason is lost although both calls return 0. -/
theorem not_both_fields_kept :
    ¬ ∀ trace last, Interleaving answer crossing trace last →
      (∀ side, ∃ statics', last.program side = .done (0, statics')) →
        last.shared = crossing.shared.holding (contents crossing.shared.bytes
          (toolFields 1 [110, 111, 114, 109, 97, 108, 0, 0]) fun _ => true) := by
  intro kept
  have ready := fun _ : Side => toolReady_emmcDevice (List.replicate 17 0) 0
  obtain ⟨trace, last, interleaving, finished, order⟩ :=
    exists_crossing 1 [110, 111, 114, 109, 97, 108, 0, 0] ready (by decide)
  have shares := interleaved_shares ready (by decide) interleaving
  have returned : ∀ side, ∃ statics', last.program side = .done (0, statics') := by
    intro side
    obtain ⟨result, here⟩ := finished side
    exact ((shares.stages side).of_done here).1
  have bytes := congrArg Device.bytes ((shares.shared.symm).trans (kept trace last interleaving returned))
  rw [order] at bytes
  exact absurd bytes (by decide)

end KernelLearning.Veeprom
