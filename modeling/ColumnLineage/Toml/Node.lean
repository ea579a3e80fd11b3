import ColumnLineage.Data.Basic

/-!
Tables while a document is read. A table has been given by a header, implied by a longer header, or
made by a key with periods, and that decides what may still be added to it: a header gives a table
once, keys with periods only go through tables that no header gave and only add to one that they
made themselves.
-/

namespace ColumnLineage.Toml

/-- How a table came about. -/
inductive Origin where
  | header
  | implied
  | dotted
  deriving DecidableEq

/-- What stands at a key: a value, a table, or several tables of one name. -/
inductive Node where
  | value (d : Data)
  | table (origin : Origin) (members : List (Text × Node))
  | tables (all : List Node)

namespace Node

/-- What stands at a name. -/
def lookup? (name : Text) : List (Text × Node) → Option Node
  | [] => none
  | (other, node) :: rest => if other = name then some node else lookup? name rest

/-- Puts a node in the place of the one at a name. -/
def replace (name : Text) (node : Node) (members : List (Text × Node)) : List (Text × Node) :=
  members.map fun entry => if entry.1 = name then (name, node) else entry

/-- Changes the members of the last table, if there is one. -/
def changeLast? (change? : List (Text × Node) → Option (List (Text × Node))) :
    List Node → Option (List Node)
  | [] => none
  | [table origin members] => (change? members).map fun members => [table origin members]
  | [_] => none
  | node :: next :: rest => (changeLast? change? (next :: rest)).map (node :: ·)

/-- Adds a value under a name that is not taken. -/
def addValue? (name : Text) (d : Data) (members : List (Text × Node)) :
    Option (List (Text × Node)) :=
  match lookup? name members with
  | none => some (members ++ [(name, value d)])
  | some _ => none

/-- Adds a value under a key with periods: the tables of `path` and a name in the last of them. -/
def addAt? : List Text → Text → Data → List (Text × Node) → Option (List (Text × Node))
  | [], name, d, members => addValue? name d members
  | step :: path, name, d, members =>
    match lookup? step members with
    | none => (addAt? path name d []).map fun inner => members ++ [(step, table .dotted inner)]
    | some (table origin inner) =>
      if origin = .dotted ∨ (origin = .implied ∧ path ≠ []) then
        (addAt? path name d inner).map fun inner => replace step (table origin inner) members
      else none
    | some (tables all) =>
      if path = [] then none
      else
        (changeLast? (addAt? path name d) all).map fun all => replace step (tables all) members
    | some (value _) => none

/-- Changes the members of the table that headers reach by a path, implying tables on the way. -/
def changeAt? (change? : List (Text × Node) → Option (List (Text × Node))) :
    List Text → List (Text × Node) → Option (List (Text × Node))
  | [], members => change? members
  | step :: path, members =>
    match lookup? step members with
    | none => (changeAt? change? path []).map fun inner => members ++ [(step, table .implied inner)]
    | some (table origin inner) =>
      (changeAt? change? path inner).map fun inner => replace step (table origin inner) members
    | some (tables all) =>
      (changeLast? (changeAt? change? path) all).map fun all => replace step (tables all) members
    | some (value _) => none

/-- Gives the table at a name, which may have been implied before. -/
def giveTable? (name : Text) (members : List (Text × Node)) : Option (List (Text × Node)) :=
  match lookup? name members with
  | none => some (members ++ [(name, table .header [])])
  | some (table .implied inner) => some (replace name (table .header inner) members)
  | some _ => none

/-- Adds one more table to those of a name. -/
def appendTable? (name : Text) (members : List (Text × Node)) : Option (List (Text × Node)) :=
  match lookup? name members with
  | none => some (members ++ [(name, tables [table .header []])])
  | some (tables all) => some (replace name (tables (all ++ [table .header []])) members)
  | some _ => none

mutual

/-- A node as data. -/
def data : Node → Data
  | value d => d
  | table _ members => .record (dataOfMembers members)
  | tables all => .list (dataOfTables all)

/-- The members of a table as data. -/
def dataOfMembers : List (Text × Node) → List (Text × Data)
  | [] => []
  | (name, node) :: rest => (name, node.data) :: dataOfMembers rest

/-- Tables as data. -/
def dataOfTables : List Node → List Data
  | [] => []
  | node :: rest => node.data :: dataOfTables rest

end

end Node

/-- Adds the values of keys, one after another. The last part of a key is the name. -/
def addPairs? : List (List Text × Data) → List (Text × Node) → Option (List (Text × Node))
  | [], members => some members
  | (key, d) :: rest, members =>
    match key.getLast? with
    | none => none
    | some name => (Node.addAt? key.dropLast name d members).bind (addPairs? rest)

/-- The data of a table within a line. Nothing can be added to it afterwards. -/
def inlineTable? (pairs : List (List Text × Data)) : Option Data :=
  (addPairs? pairs []).map fun members => .record (Node.dataOfMembers members)

end ColumnLineage.Toml
