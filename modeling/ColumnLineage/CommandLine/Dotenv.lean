import ColumnLineage.Settings.Document
import ColumnLineage.Text.Digit
import ColumnLineage.Text.Numeric
import ColumnLineage.Text.Utf8

/-!
Variables from a file of assignments, as `dotenvy` reads it. A quote that is open at the end of a
line joins the next line to it. Variables that are set already keep their value, and a line that
cannot be read ends the file: what stands before it counts.
-/

namespace ColumnLineage.CommandLine.Dotenv

open Settings (Environment)

/-! ## Joining lines -/

/-- Where a line stands after a character. -/
inductive LineState where
  | plain
  | blank
  | escape
  | single
  | singleEscape
  | double
  | doubleEscape
  deriving DecidableEq

/-- Where a line stands after a character that is neither escaped nor in quotes. -/
def LineState.afterPlain (c : Char) : LineState :=
  if c = '\\' then escape else if c = '"' then double else if c = '\'' then single else plain

/-- Where a line stands after one more character. After a blank another blank is plain. -/
def LineState.next (state : LineState) (c : Char) : LineState :=
  match state with
  | plain => if isBlank c ∧ c ≠ '\n' ∧ c ≠ '\r' then blank else afterPlain c
  | blank => afterPlain c
  | escape => plain
  | single => if c = '\\' then singleEscape else if c = '\'' then plain else single
  | singleEscape => single
  | double => if c = '\\' then doubleEscape else if c = '"' then plain else double
  | doubleEscape => double

/-- Follows a line from a state. A number sign after a blank begins a comment: then the text before
it is given and no state. -/
def follow (state : LineState) : Text → Text × Option LineState
  | [] => ([], some state)
  | c :: rest =>
    if state = .blank ∧ c = '#' then ([], none)
    else
      let (text, final) := follow (state.next c) rest
      (c :: text, final)

/-- The bytes up to and with the first line end, and those after it. -/
def splitLine : Bytes → Bytes × Bytes
  | [] => ([], [])
  | b :: rest =>
    if b = 10 then ([b], rest)
    else
      let (line, after) := splitLine rest
      (b :: line, after)

theorem splitLine_length (bytes : Bytes) (h : bytes ≠ []) :
    (splitLine bytes).2.length < bytes.length := by
  induction bytes with
  | nil => simp at h
  | cons b rest ih =>
    simp only [splitLine]
    split
    · simp
    · cases rest with
      | nil => simp [splitLine]
      | cons c more =>
        have := ih (by simp)
        simp only [List.length_cons] at this ⊢
        omega

/-- A line without the line end that closes it. -/
def withoutLineEnd (line : Text) : Text :=
  match line.reverse with
  | '\n' :: '\r' :: rest => rest.reverse
  | '\n' :: rest => rest.reverse
  | _ => line

/-- What reading one line, with those joined to it, comes to. -/
inductive LineRead where
  | line (text : Text) (rest : Bytes)
  | unreadable
  | finished

/-- Reads one line and joins lines to it as long as a quote, an escape or a blank is open at its
end. Lines whose first mark is a number sign hold nothing. -/
def readLine (joined : Text) (state : LineState) (bytes : Bytes) : LineRead :=
  if h : bytes = [] then
    if state = .plain then .finished else .unreadable
  else
    match Utf8.decode? (splitLine bytes).1 with
    | none => .unreadable
    | some line =>
      if ((joined ++ line).dropWhile isBlank).head? = some '#' then .line [] (splitLine bytes).2
      else
        match follow state line with
        | (text, none) => .line (joined ++ text) (splitLine bytes).2
        | (_, some .plain) => .line (withoutLineEnd (joined ++ line)) (splitLine bytes).2
        | (_, some state) => readLine (joined ++ line) state (splitLine bytes).2
termination_by bytes.length
decreasing_by exact splitLine_length bytes h

/-! ## Reading an assignment -/

/-- The value of a variable while a file is read: the environment comes before earlier lines. -/
def valueOf (environment earlier : Environment) (name : Text) : Text :=
  match environment.value? name with
  | some value => value
  | none => ((earlier.reverse.find? (·.1 = name)).map (·.2)).getD []

/-- Where reading a value stands. A variable may be named with or without braces. -/
inductive ValueState where
  | plain
  | ending
  | single
  | named (name : Text)
  | braced (name : Text)

/-- The character that an escape in a value stands for. -/
def escapedChar? (c : Char) : Option Char :=
  if c = '\\' ∨ c = '\'' ∨ c = '"' ∨ c = '$' ∨ c = ' ' then some c
  else if c = 'n' then some '\n'
  else none

/-- Reads a value. `quoted` tells whether a double quote is open and `escaped` whether a backslash
stands before. A dollar sign begins the name of a variable, whose value `lookup` tells. -/
def readValue? (lookup : Text → Text) : ValueState → Bool → Bool → Text → Option Text
  | .ending, _, _, [] => some []
  | .single, _, _, [] => none
  | .braced _, _, _, [] => none
  | .plain, quoted, _, [] => if quoted then none else some []
  | .named name, quoted, _, [] => if quoted then none else some (lookup name)
  | .ending, quoted, escaped, c :: rest =>
    if c = ' ' ∨ c = '\t' then readValue? lookup .ending quoted escaped rest
    else if c = '#' then some []
    else none
  | state, quoted, true, c :: rest =>
    match escapedChar? c with
    | some e => (readValue? lookup state quoted false rest).map (e :: ·)
    | none => none
  | .single, quoted, false, c :: rest =>
    if c = '\'' then readValue? lookup .plain quoted false rest
    else (readValue? lookup .single quoted false rest).map (c :: ·)
  | .named name, quoted, false, c :: rest =>
    if isAlphanumeric c then readValue? lookup (.named (name ++ [c])) quoted false rest
    else if c = '\x7b' ∧ name = [] then readValue? lookup (.braced []) quoted false rest
    else if c = '$' then
      (readValue? lookup (.named []) quoted false rest).map (lookup name ++ ·)
    else (readValue? lookup .plain quoted false rest).map (lookup name ++ c :: ·)
  | .braced name, quoted, false, c :: rest =>
    if c = '\x7d' then (readValue? lookup .plain quoted false rest).map (lookup name ++ ·)
    else readValue? lookup (.braced (name ++ [c])) quoted false rest
  | .plain, quoted, false, c :: rest =>
    if c = '$' then readValue? lookup (.named []) quoted false rest
    else if c = '\\' then readValue? lookup .plain quoted true rest
    else if c = '"' then readValue? lookup .plain (!quoted) false rest
    else if quoted then (readValue? lookup .plain quoted false rest).map (c :: ·)
    else if c = '\'' then readValue? lookup .single quoted false rest
    else if c = ' ' ∨ c = '\t' then readValue? lookup .ending quoted false rest
    else (readValue? lookup .plain quoted false rest).map (c :: ·)

/-- Whether a character can begin a name. -/
def isNameStart (c : Char) : Bool :=
  (isDigitIn 36 c && !isDigitIn 10 c) || c = '_'

/-- Whether a character can continue a name. -/
def isNamePart (c : Char) : Bool :=
  isDigitIn 36 c || c = '_' || c = '.'

/-- The name at the start of a text, and what follows it without blanks. -/
def readName? (s : Text) : Option (Text × Text) :=
  match s with
  | c :: _ =>
    if isNameStart c then some (s.takeWhile isNamePart, Text.trimStart (s.dropWhile isNamePart))
    else none
  | [] => none

/-- The name that is assigned to, and what follows the equals sign. The word `export` may stand
before the name. -/
def readTarget? (s : Text) : Option (Text × Text) :=
  match readName? s with
  | some (name, '=' :: rest) => some (name, rest)
  | some (name, rest) =>
    if name = "export".toList then
      match readName? rest with
      | some (name, '=' :: rest) => some (name, rest)
      | _ => none
    else none
  | none => none

/-- What a line comes to: nothing, an assignment, or an error. -/
def readAssignment? (lookup : Text → Text) (line : Text) : Option (Option (Text × Text)) :=
  let s := Text.trim line
  if s.isEmpty || s.head? = some '#' then some none
  else
    match readTarget? s with
    | none => none
    | some (name, rest) =>
      let value := Text.trimStart rest
      if value.isEmpty || value.head? = some '#' then some (some (name, []))
      else (readValue? lookup .plain false false value).map fun value => some (name, value)

/-! ## Loading -/

/-- What loading variables comes to. A value that no environment can hold breaks it off. -/
inductive Loading where
  | loaded (environment : Environment)
  | impossible

/-- Loads the assignments of some bytes into an environment. `earlier` holds the assignments that
were read before. The first argument bounds the lines. -/
def loadFrom : Nat → Environment → Environment → Bytes → Loading
  | 0, environment, _, _ => .loaded environment
  | lines + 1, environment, earlier, bytes =>
    match readLine [] .plain bytes with
    | .line text rest =>
      match readAssignment? (valueOf environment earlier) text with
      | none => .loaded environment
      | some none => loadFrom lines environment earlier rest
      | some (some (name, value)) =>
        if (environment.value? name).isSome then
          loadFrom lines environment (earlier ++ [(name, value)]) rest
        else if value.contains '\x00' then .impossible
        else loadFrom lines (environment ++ [(name, value)]) (earlier ++ [(name, value)]) rest
    | _ => .loaded environment

/-- Loads the assignments of a file into an environment. -/
def load (environment : Environment) (content : Bytes) : Loading :=
  let bytes :=
    match content with
    | 0xEF :: 0xBB :: 0xBF :: rest => rest
    | bytes => bytes
  loadFrom (bytes.length + 1) environment [] bytes

end ColumnLineage.CommandLine.Dotenv
