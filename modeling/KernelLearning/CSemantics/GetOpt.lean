import KernelLearning.CSemantics.Text

/-!
# `getopt_long`

The option scanner of the C library in its permuting mode: arguments that are not
options are passed over, `--` ends the scan, a long option may be abbreviated, and
an error yields `'?'` and goes on.  Optional arguments are not covered.
-/

namespace KernelLearning.CSemantics

/-- A `struct option` without `flag`. -/
structure LongOption where
  name : List Byte
  hasArg : Bool
  val : Char

/-- What one call of `getopt_long` returns; the last two are both `'?'`. -/
inductive Opt where
  /-- An option and `optarg`, which is empty where the option takes none. -/
  | found (opt : Char) (optarg : List Byte)
  | unknown
  /-- The argument of a known option is missing, or it takes none. -/
  | misused
  deriving DecidableEq, Repr

def hyphen : Byte := 45

def equalsSign : Byte := 61

/-- Does the option string define the character, and does it take an argument? -/
def shortOption (shortops : List Char) (opt : Char) : Option Bool :=
  if opt = ':' ∨ opt = ';' then none
  else
    match shortops.dropWhile (· ≠ opt) with
    | [] => none
    | _ :: rest => some (rest.head? == some ':')

/-- The option of that name, or the one it abbreviates. -/
def longOption (longopts : List LongOption) (name : List Byte) : Option LongOption :=
  match longopts.find? (·.name = name) with
  | some option => some option
  | none =>
    match longopts.filter (name.isPrefixOf ·.name) with
    | [] => none
    | option :: others =>
      if others.all fun other => other.hasArg == option.hasArg && other.val == option.val then some option
      else none

/-- The argument an option gets: what is attached to it, or else the next element, which
is then used up. -/
def takeArgument (opt : Char) (attached next : Option (List Byte)) : Opt × Bool :=
  match attached, next with
  | some optarg, _ => (.found opt optarg, false)
  | none, some optarg => (.found opt optarg, true)
  | none, none => (.misused, false)

/-- The short options in one element. -/
def scanCluster (shortops : List Char) (next : Option (List Byte)) : List Byte → List Opt × Bool
  | [] => ([], false)
  | byte :: rest =>
    let opt := Char.ofNat byte.toNat
    match shortOption shortops opt with
    | none => ((.unknown :: (scanCluster shortops next rest).1), (scanCluster shortops next rest).2)
    | some false => ((.found opt [] :: (scanCluster shortops next rest).1), (scanCluster shortops next rest).2)
    | some true =>
      let taken := takeArgument opt (if rest = [] then none else some rest) next
      ([taken.1], taken.2)

/-- The long option in one element, without its hyphens. -/
def scanLong (longopts : List LongOption) (next : Option (List Byte)) (text : List Byte) : Opt × Bool :=
  let name := text.takeWhile (· ≠ equalsSign)
  let attached := (text.drop name.length).tail?
  match longOption longopts name with
  | none => (.unknown, false)
  | some option =>
    if option.hasArg then takeArgument option.val attached next
    else if attached.isSome then (.misused, false)
    else (.found option.val [], false)

/-- One element of the vector; `none` ends the scan. -/
def scanElement (shortops : List Char) (longopts : List LongOption) (next : Option (List Byte))
    (element : List Byte) : Option (List Opt × Bool) :=
  if element = [hyphen, hyphen] then none
  else if [hyphen, hyphen].isPrefixOf element then
    let scanned := scanLong longopts next (element.drop 2)
    some ([scanned.1], scanned.2)
  else if [hyphen].isPrefixOf element then some (scanCluster shortops next (element.drop 1))
  else some ([], false)

/-- All results of `getopt_long` on the elements after the program's name; `used` says
that the first of them was taken as an argument. -/
def getoptLongFrom (shortops : List Char) (longopts : List LongOption) :
    (used : Bool) → List (List Byte) → List Opt
  | _, [] => []
  | true, _ :: rest => getoptLongFrom shortops longopts false rest
  | false, element :: rest =>
    match scanElement shortops longopts rest.head? element with
    | none => []
    | some (opts, used) => opts ++ getoptLongFrom shortops longopts used rest

def getoptLong (shortops : List Char) (longopts : List LongOption) (args : List (List Byte)) : List Opt :=
  getoptLongFrom shortops longopts false args

/-! ## Option arguments are strings -/

/-- The argument of a result is a string. -/
def Opt.IsText : Opt → Prop
  | .found _ optarg => CSemantics.IsText optarg
  | .unknown | .misused => True

theorem IsText.of_suffix {text suffix : List Byte} (clean : IsText text) (part : suffix <:+ text) :
    IsText suffix := fun byte member => clean byte (part.subset member)

theorem takeArgument_isText {opt : Char} {attached next : Option (List Byte)}
    (attachedClean : ∀ text ∈ attached, IsText text) (nextClean : ∀ text ∈ next, IsText text) :
    (takeArgument opt attached next).1.IsText := by
  unfold takeArgument
  split
  · exact attachedClean _ rfl
  · exact nextClean _ rfl
  · trivial

theorem scanCluster_isText (shortops : List Char) {next : Option (List Byte)} {cluster : List Byte}
    (clean : IsText cluster) (nextClean : ∀ text ∈ next, IsText text) :
    ∀ opt ∈ (scanCluster shortops next cluster).1, opt.IsText := by
  induction cluster with
  | nil => simp [scanCluster]
  | cons byte rest inductionHypothesis =>
    have tail := inductionHypothesis (clean.of_suffix (List.suffix_cons byte rest))
    have attached : ∀ text ∈ (if rest = [] then none else some rest), IsText text := by
      intro text member
      split at member
      · cases member
      · cases member
        exact clean.of_suffix (List.suffix_cons byte rest)
    intro opt member
    rw [scanCluster] at member
    split at member
    · rcases List.mem_cons.mp member with rfl | member
      · trivial
      · exact tail opt member
    · rcases List.mem_cons.mp member with rfl | member
      · exact isText_nil
      · exact tail opt member
    · rw [List.mem_singleton.mp member]
      exact takeArgument_isText attached nextClean

theorem suffix_of_mem_tail? {suffix text : List Byte} (member : suffix ∈ text.tail?) : suffix <:+ text := by
  cases text with
  | nil => cases member
  | cons head tail =>
    cases member
    exact List.suffix_cons head _

theorem scanLong_isText (longopts : List LongOption) {next : Option (List Byte)} {text : List Byte}
    (clean : IsText text) (nextClean : ∀ text ∈ next, IsText text) :
    (scanLong longopts next text).1.IsText := by
  unfold scanLong
  dsimp only
  split
  · trivial
  · split
    · apply takeArgument_isText _ nextClean
      intro attached member
      exact clean.of_suffix ((suffix_of_mem_tail? member).trans (List.drop_suffix _ _))
    · split
      · trivial
      · exact isText_nil

theorem scanElement_isText {shortops : List Char} {longopts : List LongOption}
    {next : Option (List Byte)} {element : List Byte} {opts : List Opt} {used : Bool}
    (clean : IsText element) (nextClean : ∀ text ∈ next, IsText text)
    (scanned : scanElement shortops longopts next element = some (opts, used)) :
    ∀ opt ∈ opts, opt.IsText := by
  have long := scanLong_isText longopts (clean.of_suffix (List.drop_suffix 2 _)) nextClean
  have short := scanCluster_isText shortops (clean.of_suffix (List.drop_suffix 1 _)) nextClean
  unfold scanElement at scanned
  split at scanned
  · cases scanned
  · split at scanned
    · cases scanned
      simpa using long
    · split at scanned
      · rw [Option.some.inj scanned] at short
        exact short
      · cases scanned
        simp

theorem getoptLong_isText {shortops : List Char} {longopts : List LongOption} {args : List (List Byte)}
    (clean : ∀ arg ∈ args, IsText arg) : ∀ opt ∈ getoptLong shortops longopts args, opt.IsText := by
  unfold getoptLong
  generalize false = used
  induction args generalizing used with
  | nil => simp [getoptLongFrom]
  | cons element rest inductionHypothesis =>
    have rests := inductionHypothesis fun arg member => clean arg (by simp [member])
    cases used with
    | true => exact rests false
    | false =>
      have nextClean : ∀ text ∈ rest.head?, IsText text := fun text member =>
        clean text (List.mem_cons_of_mem _ (List.mem_of_mem_head? member))
      intro opt member
      rw [getoptLongFrom] at member
      split at member
      · cases member
      · rename_i opts used scanned
        rcases List.mem_append.mp member with inside | after
        · exact scanElement_isText (clean element (by simp)) nextClean scanned opt inside
        · exact rests _ opt after

end KernelLearning.CSemantics
