import ColumnLineage.Toml.Node
import ColumnLineage.Toml.Scalar
import ColumnLineage.Toml.String

/-!
Values. A list may stretch over lines and end with a comma; a table within a line may not. Lists and
tables stand in each other up to a fixed depth.
-/

namespace ColumnLineage.Toml

mutual

/-- A value at the start of a text, and what follows it. The first argument bounds the steps, the
second how deep lists and tables may still go. -/
def readValue : Nat → Nat → Text → Option (Data × Text)
  | 0, _, _ => none
  | steps + 1, depth, s =>
    match s with
    | [] => none
    | '[' :: rest =>
      match depth with
      | 0 => none
      | depth + 1 =>
        match skipLines rest with
        | ']' :: rest => some (.list [], rest)
        | rest => (readItems steps depth rest).map fun (items, rest) => (.list items, rest)
    | '\x7b' :: rest =>
      match depth with
      | 0 => none
      | depth + 1 =>
        match skipSpace rest with
        | '\x7d' :: rest => some (.record [], rest)
        | rest =>
          match readPairs steps depth rest with
          | some (pairs, rest) => (inlineTable? pairs).map (·, rest)
          | none => none
    | 't' :: 'r' :: 'u' :: 'e' :: rest => some (.bool true, rest)
    | 'f' :: 'a' :: 'l' :: 's' :: 'e' :: rest => some (.bool false, rest)
    | c :: rest =>
      if c = '"' ∨ c = '\'' then (readString? (c :: rest)).map fun (s, rest) => (.text s, rest)
      else if c = '+' ∨ c = '-' ∨ isDigitIn 10 c = true then readScalar? (c :: rest)
      else readNamed? false (c :: rest)

/-- The items of a list from its first one on, and what follows the list. -/
def readItems : Nat → Nat → Text → Option (List Data × Text)
  | 0, _, _ => none
  | steps + 1, depth, s =>
    match readValue steps depth s with
    | none => none
    | some (d, rest) =>
      match skipLines rest with
      | ']' :: rest => some ([d], rest)
      | ',' :: rest =>
        match skipLines rest with
        | ']' :: rest => some ([d], rest)
        | rest => (readItems steps depth rest).map fun (ds, rest) => (d :: ds, rest)
      | _ => none

/-- The keys and values of a table within a line from the first one on, and what follows it. -/
def readPairs : Nat → Nat → Text → Option (List (List Text × Data) × Text)
  | 0, _, _ => none
  | steps + 1, depth, s =>
    match readKey? s with
    | none => none
    | some (key, rest) =>
      match rest with
      | '=' :: rest =>
        match readValue steps depth (skipSpace rest) with
        | none => none
        | some (d, rest) =>
          match skipSpace rest with
          | '\x7d' :: rest => some ([(key, d)], rest)
          | ',' :: rest =>
            (readPairs steps depth rest).map fun (pairs, rest) => ((key, d) :: pairs, rest)
          | _ => none
      | _ => none

end

end ColumnLineage.Toml
