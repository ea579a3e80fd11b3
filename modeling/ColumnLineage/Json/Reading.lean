import ColumnLineage.Json.Number

/-!
Reading JSON text. A string may hold escaped surrogates; two that fit make one character, and a
string with a surrogate left alone is written correctly but holds no text. A record with a member of
such a name cannot be used either.
-/

namespace ColumnLineage.Json

/-- Whether a character may stand between the parts of a JSON text. -/
def isSpace (c : Char) : Bool :=
  c = ' ' || c = '\n' || c = '\t' || c = '\r'

/-- The text from its first character that is no space. -/
def skipSpace (s : Text) : Text :=
  s.dropWhile isSpace

/-- A part of a written string: a character, or one half of a pair of surrogates, counted from the
first of its half. -/
inductive StringPart where
  | char (c : Char)
  | high (n : Nat)
  | low (n : Nat)
  deriving DecidableEq

/-- The part that four hexadecimal digits write. -/
def StringPart.ofUnit (n : Nat) : StringPart :=
  if 0xD800 ≤ n ∧ n < 0xDC00 then high (n - 0xD800)
  else if 0xDC00 ≤ n ∧ n < 0xE000 then low (n - 0xDC00)
  else char (Char.ofNat n)

/-- The text of some parts, if each surrogate has its other half. -/
def textOfParts? : List StringPart → Option Text
  | [] => some []
  | .char c :: rest => (textOfParts? rest).map (c :: ·)
  | .high h :: .low l :: rest =>
    (textOfParts? rest).map (Char.ofNat (0x10000 + h * 0x400 + l) :: ·)
  | _ => none

/-- The character that stands after a backslash for another one. -/
def escaped? : Char → Option Char
  | '"' => some '"'
  | '\\' => some '\\'
  | '/' => some '/'
  | 'b' => some '\x08'
  | 'f' => some '\x0c'
  | 'n' => some '\n'
  | 'r' => some '\r'
  | 't' => some '\t'
  | _ => none

/-- Puts a part in front of those that were read. -/
def consPart (part : StringPart) : Option (List StringPart × Text) → Option (List StringPart × Text)
  | some (parts, rest) => some (part :: parts, rest)
  | none => none

/-- The parts of a string after its opening quote, and what follows its closing quote. -/
def readParts : Text → Option (List StringPart × Text)
  | [] => none
  | '"' :: s => some ([], s)
  | '\\' :: 'u' :: a :: b :: c :: d :: s =>
    match number? 16 [a, b, c, d] with
    | some n => consPart (.ofUnit n) (readParts s)
    | none => none
  | '\\' :: c :: s =>
    match escaped? c with
    | some e => consPart (.char e) (readParts s)
    | none => none
  | c :: s => if c = '\\' ∨ c.toNat < 32 then none else consPart (.char c) (readParts s)

/-- A string after its opening quote, which may hold no text, and what follows its closing quote. -/
def readString (s : Text) : Option (Option Text × Text) :=
  (readParts s).map fun (parts, rest) => (textOfParts? parts, rest)

/-- The data of a string. -/
def dataOfString : Option Text → Data
  | some s => .text s
  | none => .unreadable

/-- The data of a record whose names may hold no text. -/
def dataOfMembers (members : List (Option Text × Data)) : Data :=
  match members.mapM fun (name, d) => name.map (·, d) with
  | some members => .record members
  | none => .unreadable

mutual

/-- A value at the start of a text, and what follows it. The first argument bounds the steps. -/
def readValue : Nat → Text → Option (Data × Text)
  | 0, _ => none
  | steps + 1, s =>
    match s with
    | 'n' :: 'u' :: 'l' :: 'l' :: rest => some (.null, rest)
    | 't' :: 'r' :: 'u' :: 'e' :: rest => some (.bool true, rest)
    | 'f' :: 'a' :: 'l' :: 's' :: 'e' :: rest => some (.bool false, rest)
    | '"' :: rest => (readString rest).map fun (s, rest) => (dataOfString s, rest)
    | '[' :: rest =>
      match skipSpace rest with
      | ']' :: rest => some (.list [], rest)
      | rest => (readItems steps rest).map fun (items, rest) => (.list items, rest)
    | '\x7b' :: rest =>
      match skipSpace rest with
      | '\x7d' :: rest => some (.record [], rest)
      | rest => (readMembers steps rest).map fun (members, rest) => (dataOfMembers members, rest)
    | s => (Number.read? s).map fun (parts, rest) => (parts.data, rest)

/-- The items of a list from its first one on, and what follows the list. -/
def readItems : Nat → Text → Option (List Data × Text)
  | 0, _ => none
  | steps + 1, s =>
    match readValue steps s with
    | none => none
    | some (d, rest) =>
      match skipSpace rest with
      | ',' :: rest => (readItems steps (skipSpace rest)).map fun (ds, rest) => (d :: ds, rest)
      | ']' :: rest => some ([d], rest)
      | _ => none

/-- The members of a record from its first one on, and what follows the record. -/
def readMembers : Nat → Text → Option (List (Option Text × Data) × Text)
  | 0, _ => none
  | steps + 1, s =>
    match s with
    | '"' :: s =>
      match readString s with
      | none => none
      | some (name, rest) =>
        match skipSpace rest with
        | ':' :: rest =>
          match readValue steps (skipSpace rest) with
          | none => none
          | some (d, rest) =>
            match skipSpace rest with
            | ',' :: rest =>
              (readMembers steps (skipSpace rest)).map fun (ms, rest) => ((name, d) :: ms, rest)
            | '\x7d' :: rest => some ([(name, d)], rest)
            | _ => none
        | _ => none
    | _ => none

end

/-- The data of a JSON text, with spaces around it and nothing else. Each step of reading takes at
least one character or goes down to a part, so twice the length is enough. -/
def read? (s : Text) : Option Data :=
  match readValue (2 * s.length + 1) (skipSpace s) with
  | some (d, rest) => if (skipSpace rest).isEmpty then some d else none
  | none => none

end ColumnLineage.Json
