import ColumnLineage.Data.Basic
import ColumnLineage.Decimal.Shortest

/-!
JSON text of structured data, without any space. Strings escape the quote, the backslash and the
characters below the space, so a written text is always one line.
-/

namespace ColumnLineage.Json

/-- A hexadecimal digit in lower case. -/
def hexDigit (n : Nat) : Char :=
  Nat.digitChar n

/-- How a character is written within a string. -/
def writeChar (c : Char) : Text :=
  if c = '"' then ['\\', '"']
  else if c = '\\' then ['\\', '\\']
  else if c = '\x08' then ['\\', 'b']
  else if c = '\x0c' then ['\\', 'f']
  else if c = '\n' then ['\\', 'n']
  else if c = '\r' then ['\\', 'r']
  else if c = '\t' then ['\\', 't']
  else if c.toNat < 32 then ['\\', 'u', '0', '0', hexDigit (c.toNat / 16), hexDigit (c.toNat % 16)]
  else [c]

/-- How a string is written. -/
def writeString (s : Text) : Text :=
  '"' :: s.flatMap writeChar ++ ['"']

/-- How an integer is written. -/
def writeInt (n : Int) : Text :=
  if n < 0 then '-' :: decimalDigits n.natAbs else decimalDigits n.natAbs

mutual

/-- How data are written. Numbers that are not finite are written as null. -/
def write : Data → Text
  | .null | .unreadable => ['n', 'u', 'l', 'l']
  | .bool true => ['t', 'r', 'u', 'e']
  | .bool false => ['f', 'a', 'l', 's', 'e']
  | .integer n => writeInt n
  | .float x => if x.isFinite then x.text else ['n', 'u', 'l', 'l']
  | .text s => writeString s
  | .list items => '[' :: writeItems items ++ [']']
  | .record members => '\x7b' :: writeMembers members ++ ['\x7d']

/-- How the items of a list are written. -/
def writeItems : List Data → Text
  | [] => []
  | [d] => write d
  | d :: e :: rest => write d ++ ',' :: writeItems (e :: rest)

/-- How the members of a record are written. -/
def writeMembers : List (Text × Data) → Text
  | [] => []
  | [(name, d)] => writeString name ++ ':' :: write d
  | (name, d) :: e :: rest => writeString name ++ ':' :: write d ++ ',' :: writeMembers (e :: rest)

end

end ColumnLineage.Json
