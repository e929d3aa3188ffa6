import KernelLearning.Interaction.Counting
import KernelLearning.RwLock.Holding

/-!
# Whole lines

Every message that a reader prints is the first so many lines of the input one after
the other: no reader sees a part of a line, and the lines are not mixed up.  This holds
as long as no thread has left an object, and none does if the lines fit.
-/

namespace KernelLearning.RwLock

open CSemantics Interaction

variable {readercount writercount : Nat}

/-! ## The text -/

/-- The texts of the first lines, one after the other. -/
def linesText (lines : List (List Byte)) (count : Nat) : List Byte := (lines.take count).flatMap lineText

/-- The array that holds the text. -/
def padded (text : List Byte) : List Byte := text ++ List.replicate (MAXDATA - text.length) 0

/-- The writer has appended its line. -/
def WriterPlace.committed : WriterPlace → Bool
  | .unlock | .returned => true
  | .lock | .gets | .seek _ _ | .copy _ _ => false

/-- The number of lines that were appended. -/
def committed (system : System readercount writercount) : Nat := tally WriterPlace.committed system.writer

/-- The array and the input while a writer holds the lock, after so many appended lines. -/
def Underway (lines : List (List Byte)) (count : Nat) (data : List Byte) (stdin : List (List Byte)) :
    WriterPlace → Prop
  | .lock | .returned => False
  | .gets | .unlock => data = padded (linesText lines count) ∧ stdin = lines.drop count
  | .seek array dest =>
    data = padded (linesText lines count) ∧ stdin = lines.drop (count + 1) ∧ dest ≤ (linesText lines count).length ∧
      ∃ line, lines[count]? = some line ∧ line.length < MAXDATA ∧ stringAt array = some (lineText line)
  | .copy src dest =>
    ∃ line copied rest junk, lines[count]? = some line ∧ line.length < MAXDATA ∧ lineText line = copied ++ rest ∧
      src = rest ++ 0 :: junk ∧ dest = (linesText lines count ++ copied).length ∧ dest ≤ MAXDATA ∧
        data = padded (linesText lines count ++ copied) ∧ stdin = lines.drop (count + 1)

structure Contents (lines : List (List Byte)) (system : System readercount writercount) : Prop where
  lengths : ∀ line ∈ lines.take (committed system), line.length < MAXDATA
  room : (linesText lines (committed system)).length < MAXDATA
  nobody : system.rwlock.writing = none →
    system.data = padded (linesText lines (committed system)) ∧ system.stdin = lines.drop (committed system)
  somebody : ∀ id, system.rwlock.writing = some id →
    Underway lines (committed system) system.data system.stdin (system.writer id)
  reading : ∀ id text, system.reader id = .print text → text <+: linesText lines (committed system)
  printed : ∃ counts : List Nat, counts.Pairwise (· ≤ ·) ∧ (∀ count ∈ counts, count ≤ committed system) ∧
    system.printed = counts.map (linesText lines)

variable {system system' : System readercount writercount} {lines : List (List Byte)}

/-! ## Readers -/

/-- A step of a reader leaves the text alone. -/
theorem Contents.setReader (contents : Contents lines system) (id : Fin readercount) (place : ReaderPlace)
    (writer : system'.writer = system.writer) (writing : system'.rwlock.writing = system.rwlock.writing)
    (data : system'.data = system.data) (stdin : system'.stdin = system.stdin)
    (reader : system'.reader = Function.update system.reader id place)
    (reading : ∀ text, place = .print text → text <+: linesText lines (committed system))
    (printed : ∃ counts : List Nat, counts.Pairwise (· ≤ ·) ∧ (∀ count ∈ counts, count ≤ committed system) ∧
      system'.printed = counts.map (linesText lines)) : Contents lines system' := by
  have same : committed system' = committed system := by rw [committed, writer, committed]
  refine ⟨?_, ?_, ?_, ?_, ?_, ?_⟩
  · rw [same]
    exact contents.lengths
  · rw [same]
    exact contents.room
  · rw [same, writing, data, stdin]
    exact contents.nobody
  · rw [same, writing, data, stdin, writer]
    exact contents.somebody
  · intro other text here
    rw [same]
    rw [reader, Function.update_apply] at here
    split at here
    · exact reading text here
    · exact contents.reading other text here
  · rw [same]
    exact printed

/-- A step of a writer that does not finish a line. -/
theorem Contents.setWriter (contents : Contents lines system) (count : committed system' = committed system)
    (reader : system'.reader = system.reader) (printed : system'.printed = system.printed)
    (nobody : system'.rwlock.writing = none →
      system'.data = padded (linesText lines (committed system)) ∧ system'.stdin = lines.drop (committed system))
    (somebody : ∀ id, system'.rwlock.writing = some id →
      Underway lines (committed system) system'.data system'.stdin (system'.writer id)) :
    Contents lines system' := by
  refine ⟨?_, ?_, ?_, ?_, ?_, ?_⟩
  · rw [count]
    exact contents.lengths
  · rw [count]
    exact contents.room
  · rw [count]
    exact nobody
  · rw [count]
    exact somebody
  · rw [count, reader]
    exact contents.reading
  · rw [count, printed]
    exact contents.printed

/-- While a writer holds the lock, only its own progress counts. -/
theorem Contents.within (contents : Contents lines system) (id : Fin writercount) (place : WriterPlace)
    (count : committed system' = committed system) (reader : system'.reader = system.reader)
    (printed : system'.printed = system.printed) (holder : system'.rwlock.writing = some id)
    (writer : system'.writer = Function.update system.writer id place)
    (underway : Underway lines (committed system) system'.data system'.stdin place) : Contents lines system' := by
  refine contents.setWriter count reader printed ?_ ?_
  · intro nobody
    rw [holder] at nobody
    cases nobody
  · intro other same
    rw [holder] at same
    cases same
    rw [writer, Function.update_self]
    exact underway

/-- The line of every writer fits into its array, and the text that they make fits into the shared one. -/
structure Fits (lines : List (List Byte)) (writercount : Nat) : Prop where
  lengths : ∀ line ∈ lines.take writercount, line.length < MAXDATA
  room : (linesText lines writercount).length < MAXDATA

structure Sound (lines : List (List Byte)) (system : System readercount writercount) : Prop where
  locked : Locked system
  contents : system.overrun = false → Contents lines system
  within : Fits lines writercount → system.overrun = false

end KernelLearning.RwLock
