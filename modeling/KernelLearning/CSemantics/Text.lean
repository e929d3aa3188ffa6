import Mathlib.Data.Nat.Digits.Lemmas
import KernelLearning.CSemantics.Word

/-!
# C strings and numerals

A `char` object is a list of bytes; a string is what stands before the first
NUL.  Functions that would read or write past the end of an object return
`none`.
-/

namespace KernelLearning.CSemantics

abbrev Byte := UInt8

def ascii (text : String) : List Byte :=
  text.toList.map fun character => UInt8.ofNat character.toNat

/-- A string as the arguments of a process carry it: no NUL inside. -/
def IsText (text : List Byte) : Prop := ∀ byte ∈ text, byte ≠ 0

instance (text : List Byte) : Decidable (IsText text) := List.decidableBAll (· ≠ 0) text

/-- The string at the start of an object. -/
def stringAt : List Byte → Option (List Byte)
  | [] => none
  | byte :: rest => if byte = 0 then some [] else (stringAt rest).map (byte :: ·)

/-- The bytes are compared as `unsigned char`. -/
def strcmp : List Byte → List Byte → Option Int
  | left :: lefts, right :: rights =>
    if left ≠ right then some ((left.toNat : Int) - right.toNat)
    else if left = 0 then some 0
    else strcmp lefts rights
  | _, _ => none

/-- At most `count` characters of two strings are compared. -/
def strncmpEq (count : Nat) (left right : List Byte) : Bool :=
  (left ++ [0]).take count == (right ++ [0]).take count

/-- `strcpy`: the string of `source` with its NUL goes to the start of `target`. -/
def strcpy (target source : List Byte) : Option (List Byte) :=
  match stringAt source with
  | none => none
  | some text =>
    if text.length < target.length then some (text ++ 0 :: target.drop (text.length + 1)) else none

/-- Conversion of an `int` to `char`. -/
def toChar (value : Int) : Byte := UInt8.ofNat (value % 256).toNat

def isDigit (byte : Byte) : Bool := 48 ≤ byte && byte ≤ 57

def isSpace (byte : Byte) : Bool := byte = 32 || (9 ≤ byte && byte ≤ 13)

def isPrint (byte : Byte) : Bool := 32 ≤ byte && byte ≤ 126

def digitsValue (digits : List Byte) : Nat :=
  digits.foldl (fun value digit => 10 * value + (digit.toNat - 48)) 0

/-- `strtol` in base 10 with a 64-bit `long`: out-of-range values saturate. -/
def strtol (text : List Byte) : Int :=
  let unsigned (rest : List Byte) : Int := digitsValue (rest.takeWhile isDigit)
  match text.dropWhile isSpace with
  | [] => 0
  | sign :: rest =>
    if sign = 45 then max (-unsigned rest) (-2 ^ 63)
    else if sign = 43 then min (unsigned rest) (2 ^ 63 - 1)
    else min (unsigned (sign :: rest)) (2 ^ 63 - 1)

def atoi (text : List Byte) : Int := toInt32 (strtol text)

def digitByte (digit : Nat) : Byte := UInt8.ofNat (48 + digit)

def decimalNat (value : Nat) : List Byte :=
  if value = 0 then [48] else (Nat.digits 10 value).reverse.map digitByte

/-- What `%d` and `%ld` print. -/
def decimal (value : Int) : List Byte :=
  if value < 0 then 45 :: decimalNat value.natAbs else decimalNat value.toNat

/-! ## Strings -/

theorem isText_nil : IsText [] := fun _ member => nomatch member

theorem stringAt_append_zero {text : List Byte} (clean : IsText text) (rest : List Byte) :
    stringAt (text ++ 0 :: rest) = some text := by
  induction text with
  | nil => simp [stringAt]
  | cons byte text inductionHypothesis =>
    have nonzero : byte ≠ 0 := clean byte (by simp)
    have tail := inductionHypothesis fun other member => clean other (by simp [member])
    simp [stringAt, nonzero, tail]

theorem stringAt_eq_some {memory text : List Byte} (found : stringAt memory = some text) :
    IsText text ∧ ∃ rest, memory = text ++ 0 :: rest := by
  induction memory generalizing text with
  | nil => cases found
  | cons byte memory inductionHypothesis =>
    by_cases zero : byte = 0
    · simp only [stringAt, zero, if_true, Option.some.injEq] at found
      subst found
      exact ⟨isText_nil, memory, by simp [zero]⟩
    · simp only [stringAt, zero, if_false, Option.map_eq_some_iff] at found
      obtain ⟨tail, tailFound, rfl⟩ := found
      obtain ⟨clean, rest, rfl⟩ := inductionHypothesis tailFound
      refine ⟨?_, rest, rfl⟩
      intro other member
      rcases List.mem_cons.mp member with rfl | member
      · exact zero
      · exact clean other member

theorem takeWhile_ne_append {mark : Byte} {front : List Byte} (outside : mark ∉ front) (rest : List Byte) :
    (front ++ mark :: rest).takeWhile (· ≠ mark) = front := by
  have all : ∀ byte ∈ front, decide (byte ≠ mark) = true := by
    intro byte member
    refine decide_eq_true fun same => outside ?_
    rwa [← same]
  rw [List.takeWhile_append_of_pos all, List.takeWhile_cons_of_neg (by simp), List.append_nil]

/-- The string ends at the first NUL. -/
theorem takeWhile_of_stringAt {memory text : List Byte} (found : stringAt memory = some text) :
    memory.takeWhile (· ≠ 0) = text := by
  obtain ⟨clean, rest, split⟩ := stringAt_eq_some found
  rw [split]
  exact takeWhile_ne_append (fun member => clean 0 member rfl) rest

theorem stringAt_eq_none {memory : List Byte} (clean : IsText memory) : stringAt memory = none := by
  induction memory with
  | nil => rfl
  | cons byte memory inductionHypothesis =>
    have nonzero : byte ≠ 0 := clean byte List.mem_cons_self
    have rest := inductionHypothesis fun other member => clean other (List.mem_cons_of_mem byte member)
    rw [stringAt, if_neg nonzero, rest, Option.map_none]

theorem IsText.append {text rest : List Byte} (clean : IsText text) (cleanRest : IsText rest) :
    IsText (text ++ rest) := by
  intro byte member
  rcases List.mem_append.mp member with front | back
  · exact clean byte front
  · exact cleanRest byte back

/-- Up to the length of a string, `strncmp` tells whether the string is a prefix. -/
theorem strncmpEq_length_iff {text other : List Byte} (clean : IsText text) (rest : List Byte) :
    strncmpEq text.length (text ++ rest) other = true ↔ text <+: other := by
  rw [strncmpEq, beq_iff_eq, List.append_assoc, List.take_left]
  constructor
  · intro same
    have inside : text <+: other ++ [0] := List.prefix_iff_eq_take.mpr same
    rcases List.prefix_concat_iff.mp inside with whole | front
    · -- the NUL of the other string is not in the text
      exact absurd rfl (clean 0 (by rw [whole]; exact List.mem_append_right other List.mem_cons_self))
    · exact front
  · intro front
    exact List.prefix_iff_eq_take.mp (front.trans (List.prefix_append other [0]))

theorem strcmp_same {text : List Byte} (clean : IsText text) (left right : List Byte) :
    strcmp (text ++ 0 :: left) (text ++ 0 :: right) = some 0 := by
  induction text with
  | nil => simp [strcmp]
  | cons byte text inductionHypothesis =>
    have nonzero : byte ≠ 0 := clean byte (by simp)
    have tail := inductionHypothesis fun other member => clean other (by simp [member])
    simpa [strcmp, nonzero] using tail

theorem strcmp_differ {text : List Byte} (clean : IsText text) {left right : Byte}
    (differ : left ≠ right) (lefts rights : List Byte) :
    ∃ order, strcmp (text ++ left :: lefts) (text ++ right :: rights) = some order ∧ order ≠ 0 := by
  induction text with
  | nil =>
    refine ⟨(left.toNat : Int) - right.toNat, by simp [strcmp, differ], ?_⟩
    intro equal
    exact differ (UInt8.toNat.inj (by omega))
  | cons byte text inductionHypothesis =>
    have nonzero : byte ≠ 0 := clean byte (by simp)
    obtain ⟨order, compared, nonequal⟩ :=
      inductionHypothesis fun other member => clean other (by simp [member])
    exact ⟨order, by simpa [strcmp, nonzero] using compared, nonequal⟩

theorem strcmp_eq_zero_iff {left right : List Byte} (leftClean : IsText left)
    (rightClean : IsText right) (lefts rights : List Byte) :
    ∃ order, strcmp (left ++ 0 :: lefts) (right ++ 0 :: rights) = some order ∧
      (order = 0 ↔ left = right) := by
  induction left generalizing right with
  | nil =>
    cases right with
    | nil => exact ⟨0, by simp [strcmp], by simp⟩
    | cons byte right =>
      obtain ⟨order, compared, nonequal⟩ := strcmp_differ isText_nil
        (Ne.symm (rightClean byte (by simp))) lefts (right ++ 0 :: rights)
      exact ⟨order, compared, by simp [nonequal]⟩
  | cons byte left inductionHypothesis =>
    have nonzero : byte ≠ 0 := leftClean byte (by simp)
    cases right with
    | nil =>
      obtain ⟨order, compared, nonequal⟩ := strcmp_differ isText_nil
        nonzero (left ++ 0 :: lefts) rights
      exact ⟨order, compared, by simp [nonequal]⟩
    | cons other right =>
      by_cases same : byte = other
      · subst same
        obtain ⟨order, compared, equal⟩ := inductionHypothesis
          (fun other member => leftClean other (List.mem_cons_of_mem _ member))
          (fun other member => rightClean other (List.mem_cons_of_mem _ member))
        exact ⟨order, by simpa [strcmp, nonzero] using compared, by simpa using equal⟩
      · obtain ⟨order, compared, nonequal⟩ := strcmp_differ isText_nil
          same (left ++ 0 :: lefts) (right ++ 0 :: rights)
        exact ⟨order, compared, by simp [nonequal, same]⟩

/-- An object compares equal to a string exactly if it begins with that string and its NUL. -/
theorem strcmp_text_iff {text : List Byte} (clean : IsText text) (object rest : List Byte) :
    strcmp object (text ++ 0 :: rest) = some 0 ↔ text ++ [0] <+: object := by
  have order_zero : ∀ {left right : Byte}, (left.toNat : Int) - right.toNat = 0 → left = right :=
    fun equal => UInt8.toNat.inj (by omega)
  induction text generalizing object with
  | nil =>
    cases object with
    | nil => simp [strcmp]
    | cons byte object =>
      by_cases zero : byte = 0
      · simp [strcmp, zero]
      · simp only [List.nil_append, strcmp, ne_eq, zero, not_false_iff, if_true, Option.some.injEq,
          List.cons_prefix_cons, List.nil_prefix, and_true]
        exact ⟨fun equal => absurd (order_zero equal) zero, fun same => absurd same.symm zero⟩
  | cons first text inductionHypothesis =>
    have nonzero : first ≠ 0 := clean first List.mem_cons_self
    have tail := inductionHypothesis fun other member => clean other (List.mem_cons_of_mem first member)
    cases object with
    | nil => simp [strcmp]
    | cons byte object =>
      by_cases same : byte = first
      · simp only [List.cons_append, strcmp, same, ne_eq, not_true, if_false, nonzero, List.cons_prefix_cons, true_and]
        exact tail object
      · simp only [List.cons_append, strcmp, ne_eq, same, not_false_iff, if_true, Option.some.injEq,
          List.cons_prefix_cons]
        exact ⟨fun equal => absurd (order_zero equal) same, fun parts => absurd parts.1.symm same⟩

theorem strcpy_of_fits {text target : List Byte} (clean : IsText text) (rest : List Byte)
    (fits : text.length < target.length) :
    strcpy target (text ++ 0 :: rest) = some (text ++ 0 :: target.drop (text.length + 1)) := by
  simp [strcpy, stringAt_append_zero clean, fits]

theorem strcpy_of_overflows {text target : List Byte} (clean : IsText text) (rest : List Byte)
    (overflows : target.length ≤ text.length) : strcpy target (text ++ 0 :: rest) = none := by
  simp [strcpy, stringAt_append_zero clean, Nat.not_lt.mpr overflows]

end KernelLearning.CSemantics
