import ColumnLineage.Text.Basic

/-!
Addresses of requests. What a server is asked for is the part of an address after the server: its
path without steps up and down and, after a question mark, its query. Characters that may not stand
there are written as bytes.
-/

namespace ColumnLineage.Description.Address

/-- A character as bytes, each a percent sign and two hexadecimal digits. -/
def percent (c : Char) : Text :=
  (String.utf8EncodeChar c).flatMap fun b => ['%', digit (b.toNat / 16), digit (b.toNat % 16)]
where
  /-- A hexadecimal digit in upper case. -/
  digit (n : Nat) : Char := (Nat.digitChar n).toUpper

/-- Whether a character has to be written as bytes in every part of an address. -/
def isReserved (c : Char) : Bool :=
  c.toNat ≤ 32 || 127 ≤ c.toNat || c = '"' || c = '<' || c = '>'

/-- Whether a character has to be written as bytes in a path. -/
def isPathReserved (c : Char) : Bool :=
  isReserved c || c = '\x60' || c = '\x7b' || c = '\x7d'

/-- Whether a character has to be written as bytes in a query. -/
def isQueryReserved (c : Char) : Bool :=
  isReserved c || c = '\''

/-- Writes the reserved characters of a text as bytes. -/
def encode (reserved : Char → Bool) (s : Text) : Text :=
  s.flatMap fun c => if reserved c then percent c else [c]

/-- Whether a text spells one dot of a step, as itself or as the byte of it. -/
def isDot : Text → Bool
  | ['.'] => true
  | ['%', '2', last] => last = 'e' || last = 'E'
  | _ => false

/-- Whether a step of a path leads up: it is two dots, the first of which is one character or
three. -/
def isUp (step : Text) : Bool :=
  (isDot (step.take 1) && isDot (step.drop 1)) || (isDot (step.take 3) && isDot (step.drop 3))

/-- Whether a step of a path names a drive: a letter and a mark after it. -/
def isDrive : Text → Bool
  | [letter, mark] => letter.isAlpha && (mark = ':' || mark = '|')
  | _ => false

/-- The steps taken, the last of them first, after a step up. A drive is never left. -/
def goUp : List Text → List Text
  | [] => []
  | step :: taken => if isDrive step then step :: taken else taken

/-- The steps of a path that are left when each step up has taken back the one before it. The last
step of a path is a place, even where it is a step up or none. -/
def resolve (taken : List Text) : List Text → List Text
  | [] => taken.reverse
  | [step] =>
    if isUp step then ([] :: goUp taken).reverse
    else if isDot step then ([] :: taken).reverse
    else (step :: taken).reverse
  | step :: next :: rest =>
    if isUp step then resolve (goUp taken) (next :: rest)
    else if isDot step then resolve taken (next :: rest)
    else resolve (step :: taken) (next :: rest)

/-- The steps of a path that begins with a slash, leaning either way, before any is resolved. -/
def pathSteps (path : Text) : List Text :=
  (path.map fun c => if c = '\\' then '/' else c).tail.splitOn '/'

/-- The path of a request, which begins with a slash. -/
def normalPath (path : Text) : Text :=
  '/' :: encode isPathReserved (Text.joinWith ['/'] (resolve [] (pathSteps path)))

/-- What a server is asked for by the part of an address after it, if that is such a part. -/
def request? (rest : Text) : Option Text :=
  let named := rest.takeWhile (· ≠ '#')
  let path := named.takeWhile (· ≠ '?')
  if path.isEmpty || path.head? = some '/' || path.head? = some '\\' then
    some (normalPath path ++
      match named.dropWhile (· ≠ '?') with
      | [] => []
      | mark :: query => mark :: encode isQueryReserved query)
  else none

/-- Whether a character counts at the ends of an address. -/
def isEdge (c : Char) : Bool :=
  c.toNat ≤ 32

/-- An address without the characters that do not count. -/
def clean (address : Text) : Text :=
  let kept := (address.dropWhile isEdge).reverse.dropWhile isEdge
  kept.reverse.filter fun c => c ≠ '\t' && c ≠ '\n' && c ≠ '\r'

/-- What the server is asked for by an address, if the address leads to it. -/
def requestTo? (server address : Text) : Option Text :=
  (Text.after? server (clean address)).bind request?

end ColumnLineage.Description.Address
