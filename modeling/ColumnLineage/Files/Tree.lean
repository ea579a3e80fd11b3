import ColumnLineage.Files.Reader

/-!
A tree of files under a working directory, and reading from it. Outside of it there are the
directories above, of which nothing is known, and what is known from the top of all files.
-/

namespace ColumnLineage.Files

/-- What stands at a place of a tree. -/
inductive Entry where
  | file (content : Bytes)
  | directory

/-- Entries by the names that lead to them. A directory that holds something need not be listed, and
of several entries at one place the last counts. -/
abbrev Entries := List (List Bytes × Entry)

/-- The entry at the end of some names, if there is one. -/
def Entries.entry? (entries : Entries) (names : List Bytes) : Option Entry :=
  match entries.reverse.find? fun entry => entry.1 = names with
  | some entry => some entry.2
  | none =>
    if names = [] ∨ entries.any (fun entry => names.isPrefixOf entry.1) = true then
      some .directory
    else none

/-- The entries of a tree, by names from the working directory, and those outside of it, by names
from the top. -/
structure Tree where
  entries : Entries
  outside : Entries

/-- A place on the way along a path: under the working directory, somewhere above it, or under the
top of all files. -/
inductive Place where
  | inside (names : List Bytes)
  | above
  | outside (names : List Bytes)
  deriving DecidableEq

/-- The place that one step leads to, if it is one of which anything can be known. -/
def Place.next? : Place → Step → Option Place
  | place, .stay => some place
  | .inside [], .up | .above, .up => some .above
  | .inside names, .up => some (.inside names.dropLast)
  | .outside names, .up => some (.outside names.dropLast)
  | .inside names, .into name => some (.inside (names ++ [name]))
  | .outside names, .into name => some (.outside (names ++ [name]))
  | .above, .into _ => none

namespace Tree

/-- The entry at a place. -/
def entry? (tree : Tree) : Place → Option Entry
  | .inside names => tree.entries.entry? names
  | .above => some .directory
  | .outside names => tree.outside.entry? names

/-- The longest name, in bytes. -/
def nameLimit : Nat := 255

/-- The length that a path, in bytes, has to stay below. -/
def pathLimit : Nat := 4096

/-- Whether the name that a step goes into is too long for any name. -/
def isTooLong : Step → Bool
  | .into name => nameLimit < name.length
  | _ => false

/-- The place after one step from a place. -/
def step (tree : Tree) (place : Place) (s : Step) : Except ReadError Place :=
  match tree.entry? place with
  | some .directory =>
    if isTooLong s then .error .nameTooLong
    else
      match (place.next? s).filter fun next => (tree.entry? next).isSome with
      | some next => .ok next
      | none => .error .notFound
  | _ => .error .notDirectory

/-- The place that a path leads to, which ends with the entry at it. -/
def placeOf (tree : Tree) (path : Path) : Except ReadError Place :=
  if path.contains 0 then .error .nulByte
  else if path.isEmpty then .error .notFound
  else if pathLimit ≤ path.length then .error .nameTooLong
  else
    let start := if Path.isAbsolute path then .outside [] else .inside []
    (Path.allSteps path).foldlM tree.step start

/-- The reader of a tree. -/
def reader (tree : Tree) : Reader := fun path =>
  match tree.placeOf path with
  | .error e => .error e
  | .ok place =>
    match tree.entry? place with
    | some (.file content) => .ok content
    | _ => .error .isDirectory

/-- What a tree tells of a path. -/
def standing (tree : Tree) (path : Path) : Standing :=
  match tree.placeOf path with
  | .error .notFound => .nothing
  | .error _ => .unknown
  | .ok place =>
    match tree.entry? place with
    | some (.file _) => .file
    | _ => .other

end Tree

end ColumnLineage.Files
