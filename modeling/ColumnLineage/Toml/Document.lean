import ColumnLineage.Toml.Value

/-!
Documents: lines with a key and its value, headers that give a table, and headers that add one more
table of a name. Keys go to the table of the header before them.
-/

namespace ColumnLineage.Toml

/-- What one line of a document says. -/
inductive Line where
  | pair (key : List Text) (d : Data)
  | table (path : List Text)
  | nextTable (path : List Text)

/-- A line that says something, which does not start with spaces, and what follows it. -/
def readLine? (s : Text) : Option (Line × Text) :=
  match s with
  | '[' :: '[' :: s =>
    match readKey? s with
    | some (path, ']' :: ']' :: rest) => (finishLine? rest).map (.nextTable path, ·)
    | _ => none
  | '[' :: s =>
    match readKey? s with
    | some (path, ']' :: rest) => (finishLine? rest).map (.table path, ·)
    | _ => none
  | s =>
    match readKey? s with
    | some (key, '=' :: rest) =>
      match readValue (2 * rest.length + 1) depthLimit (skipSpace rest) with
      | some (d, rest) => (finishLine? rest).map (.pair key d, ·)
      | none => none
    | _ => none

/-- All lines of a document that say something. The first argument bounds their number. -/
def readLinesOf? : Nat → Text → Option (List Line)
  | 0, _ => none
  | lines + 1, s =>
    match skipLines s with
    | [] => some []
    | rest =>
      match readLine? rest with
      | some (line, rest) => (readLinesOf? lines rest).map (line :: ·)
      | none => none

/-- A document while it is read: its tables and the path of the last header. -/
structure Draft where
  header : List Text
  members : List (Text × Node)

/-- Changes the table at the last step of a path. -/
def Draft.give? (change? : Text → List (Text × Node) → Option (List (Text × Node)))
    (path : List Text) (draft : Draft) : Option Draft :=
  match path.getLast? with
  | none => none
  | some name =>
    (Node.changeAt? (change? name) path.dropLast draft.members).map fun members =>
      ⟨path, members⟩

/-- A document after one more line. -/
def Draft.extend? (draft : Draft) : Line → Option Draft
  | .pair key d =>
    (Node.changeAt? (addPairs? [(key, d)]) draft.header draft.members).map fun members =>
      ⟨draft.header, members⟩
  | .table path => draft.give? Node.giveTable? path
  | .nextTable path => draft.give? Node.appendTable? path

/-- The text without the mark that may tell its byte order. -/
def skipByteOrderMark : Text → Text
  | '\uFEFF' :: s => s
  | s => s

/-- The data of a TOML text. -/
def read? (s : Text) : Option Data :=
  match readLinesOf? (s.length + 1) (skipByteOrderMark s) with
  | some lines =>
    (lines.foldlM Draft.extend? ⟨[], []⟩).map fun draft =>
      .record (Node.dataOfMembers draft.members)
  | none => none

end ColumnLineage.Toml
