import ColumnLineage.Description.HostName
import ColumnLineage.Text.Utf8

/-!
Hosts of addresses, as `Host::parse` reads them. A host is a name or a number: one of thirty-two bits
in up to four parts with points between them, or one of a hundred and twenty-eight in eight groups
with colons between them, which stands in brackets. Bytes of a name may be written in hexadecimal.
-/

namespace ColumnLineage.Description

/-- A host. -/
inductive Host where
  | name (name : Text)
  | four (number : Nat)
  | six (number : Nat)
  deriving DecidableEq

namespace Host

/-! ## Numbers in four parts -/

/-- The number that a part of a host writes: hexadecimal after a mark, octal after another zero and
decimal elsewhere. -/
def part? : Text → Option Nat
  | '0' :: 'x' :: digits | '0' :: 'X' :: digits =>
    if digits.isEmpty then some 0 else number? 16 digits
  | '0' :: digit :: digits => number? 8 (digit :: digits)
  | digits => number? 10 digits

/-- The parts of a name between its points. A point at the end is followed by none. -/
def parts (name : Text) : List Text :=
  let parts := name.splitOn '.'
  if parts.getLast? = some [] then parts.dropLast else parts

/-- Whether the last part of a name makes it a number, if there are such numbers at all. -/
def endsInNumber (name : Text) : Bool :=
  (parts name).getLast?.any fun last =>
    (!last.isEmpty && last.all (isDigitIn 10)) || (part? last).isSome

/-- The number of some parts. Each but the last is a byte, and the last fills the bytes that are
left. -/
def four? (parts : List Text) : Option Nat := do
  let numbers ← parts.mapM part?
  let front := numbers.dropLast
  let last ← numbers.getLast?
  let left := Nat.pow 256 (4 - front.length)
  if front.length < 4 ∧ front.all (· < 256) ∧ last < left then
    some (front.foldl (fun n byte => n * 256 + byte) 0 * left + last)
  else none

/-! ## Numbers in eight groups -/

/-- The number below 256 that a text writes without needless zeros. -/
def octet? (s : Text) : Option Nat :=
  if 1 < s.length && s.head? = some '0' then none
  else (number? 10 s).filter (· < 256)

/-- The number of four bytes in decimal with points between them. -/
def dotted? (s : Text) : Option Nat :=
  match s.splitOn '.' with
  | [a, b, c, d] => do
    return (((← octet? a) * 256 + (← octet? b)) * 256 + (← octet? c)) * 256 + (← octet? d)
  | _ => none

/-- The number of a group, which has up to four digits. -/
def group? (s : Text) : Option Nat :=
  if s.length ≤ 4 then number? 16 s else none

/-- The numbers of some groups. In place of the last two there may be four bytes in decimal. -/
def groups? : List Text → Option (List Nat)
  | [] => some []
  | [last] =>
    match group? last with
    | some number => some [number]
    | none => (dotted? last).map fun number => [number / 0x10000, number % 0x10000]
  | group :: rest => do
    return (← group? group) :: (← groups? rest)

/-- The texts between colons. An empty text has none. -/
def betweenColons (s : Text) : List Text :=
  if s.isEmpty then [] else s.splitOn ':'

/-- What stands before and after the first two colons next to each other. -/
def atGap? : Text → Option (Text × Text)
  | [] => none
  | ':' :: ':' :: rest => some ([], rest)
  | c :: rest => (atGap? rest).map fun (before, after) => (c :: before, after)

/-- The number that some groups make. -/
def ofGroups (groups : List Nat) : Nat :=
  groups.foldl (fun n group => n * 0x10000 + group) 0

/-- The number of eight groups, or of fewer with two colons for those that are zero. -/
def six? (s : Text) : Option Nat :=
  match atGap? s with
  | none => ((groups? (betweenColons s)).filter (·.length = 8)).map ofGroups
  | some (before, after) => do
    let front ← (betweenColons before).mapM group?
    let back ← groups? (betweenColons after)
    let known := front.length + back.length
    if known < 8 then some (ofGroups (front ++ List.replicate (8 - known) 0 ++ back)) else none

/-- The host in brackets that a text after the first of them is. -/
def bracketed? (rest : Text) : Option Host :=
  if rest.getLast? = some ']' then (six? rest.dropLast).map six else none

/-! ## Names -/

/-- The bytes of a text, of which some may be written as a percent sign and two hexadecimal
digits. -/
def percentDecode : Text → Bytes
  | [] => []
  | '%' :: a :: b :: rest =>
    if isDigitIn 16 a && isDigitIn 16 b then (numberOf 16 [a, b]).toUInt8 :: percentDecode rest
    else 0x25 :: percentDecode (a :: b :: rest)
  | c :: rest => String.utf8EncodeChar c ++ percentDecode rest

/-- The name in ASCII of a text. -/
def toAscii? (names : Names) (s : Text) : Option Text :=
  if Names.isPlain s then some (s.map Char.toLower) else names s

/-- The characters that have a meaning of their own in addresses and so cannot be part of a name. -/
def marks : Text := "#%/:<>?@[\\]^|".toList

/-- Whether a character cannot be part of a name. -/
def isForbidden (c : Char) : Bool :=
  c.toNat ≤ 32 || c.toNat = 127 || marks.contains c

/-- The host that a text is in the address of a server or a file: `Host::parse`. -/
def ofText? (names : Names) : Text → Option Host
  | '[' :: rest => bracketed? rest
  | s => do
    let name ← toAscii? names (← Utf8.decode? (percentDecode s))
    if name.isEmpty || name.any isForbidden then none
    else if endsInNumber name then (four? (parts name)).map four
    else some (.name name)

/-- Whether a character cannot be part of a host in any other address. -/
def isOpaqueForbidden (c : Char) : Bool :=
  c = '\x00' || c = ' ' || (c ≠ '%' && marks.contains c)

/-- The host that a text is in any other address: `Host::parse_opaque`. Its bytes stay as they are
written. -/
def ofOpaque? : Text → Option Host
  | '[' :: rest => bracketed? rest
  | s => if s.any isOpaqueForbidden then none else some (.name s)

end Host

end ColumnLineage.Description
