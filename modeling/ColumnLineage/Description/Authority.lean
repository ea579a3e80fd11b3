import ColumnLineage.Description.Address
import ColumnLineage.Description.Host

/-!
Where addresses lead, as `Url::parse` reads them: `destination`. An address that can be asked at all
has a scheme, and its authority names a host and a port that there can be. Whether anyone answers
there is another question.
-/

namespace ColumnLineage.Description.Address

/-- Where an address leads: to a host under a scheme, to no host at all, or nowhere because it
cannot be read. -/
inductive Destination where
  | host (scheme : Text) (host : Host)
  | hostless
  | malformed

/-- Whether there is a host at the end of an address, without which no request can be made. -/
def Destination.hasHost : Destination → Bool
  | host _ _ => true
  | hostless | malformed => false

/-- Whether a character may stand in a scheme. -/
def isSchemeChar (c : Char) : Bool :=
  c.isAlphanum || c = '+' || c = '-' || c = '.'

/-- The scheme of an address in lower case and what follows its colon. A scheme begins with a
letter. -/
def scheme? (address : Text) : Option (Text × Text) :=
  match address.takeWhile isSchemeChar, address.dropWhile isSchemeChar with
  | first :: more, ':' :: rest =>
    if first.isAlpha then some ((first :: more).map Char.toLower, rest) else none
  | _, _ => none

/-- The schemes of servers. In their addresses any slashes, of which there may be none, precede the
authority. -/
def serverSchemes : List Text :=
  ["http", "https", "ws", "wss", "ftp"].map String.toList

/-- The scheme of files. -/
def fileScheme : Text := "file".toList

/-- Whether a character is a slash, leaning either way. -/
def isSlash (c : Char) : Bool :=
  c = '/' || c = '\\'

/-- Whether a character ends an authority. -/
def endsAuthority (c : Char) : Bool :=
  c = '/' || c = '?' || c = '#'

/-- An authority without the user, who stands before the last at sign. -/
def withoutUser (authority : Text) : Text :=
  (authority.reverse.takeWhile (· ≠ '@')).reverse

/-- The host in a text and what follows it from the first colon on that stands in no brackets. -/
def splitPort (inBrackets : Bool) : Text → Text × Text
  | [] => ([], [])
  | c :: rest =>
    if c = ':' && !inBrackets then ([], c :: rest)
    else
      let (host, port) := splitPort (c = '[' || (inBrackets && c ≠ ']')) rest
      (c :: host, port)

/-- Whether a text after a host names no port or one that there can be. -/
def isPort : Text → Bool
  | [] => true
  | _ :: port =>
    let digits := port.takeWhile (· ≠ '\\')
    digits.all (isDigitIn 10) && numberOf 10 digits < 0x10000

/-- Where an authority leads. -/
def ofAuthority (scheme authority : Text) (host? : Text → Option Host) : Destination :=
  let (text, port) := splitPort false (withoutUser authority)
  if text.isEmpty || !isPort port then .malformed
  else
    match host? text with
    | some host => .host scheme host
    | none => .malformed

/-- Where the address of a file leads by what follows its scheme. A host has two slashes before it;
a drive is none, and neither is the host that the program runs on. -/
def ofFile (names : Names) (rest : Text) : Destination :=
  match rest with
  | a :: b :: rest =>
    let ends (c : Char) : Bool := isSlash c || endsAuthority c
    let text := rest.takeWhile fun c => !ends c
    let path := (rest.dropWhile fun c => !ends c).takeWhile fun c => c ≠ '?' && c ≠ '#'
    if !(isSlash a && isSlash b) || text.isEmpty || isDrive text then .hostless
    else
      match Host.ofText? names text with
      | none => .malformed
      | some host =>
        if host = .name "localhost".toList || (resolve [] (pathSteps path)).head?.any isDrive then
          .hostless
        else .host fileScheme host
  | _ => .hostless

/-- Where an address leads. -/
def destination (names : Names) (address : Text) : Destination :=
  match scheme? (clean address) with
  | none => .hostless
  | some (scheme, rest) =>
    if serverSchemes.contains scheme then
      let authority := (rest.dropWhile isSlash).takeWhile fun c => !(isSlash c || endsAuthority c)
      ofAuthority scheme authority (Host.ofText? names)
    else if scheme = fileScheme then ofFile names rest
    else
      match Text.after? ['/', '/'] rest with
      | none => .hostless
      | some rest =>
        let authority := rest.takeWhile fun c => !endsAuthority c
        if authority.isEmpty then .hostless else ofAuthority scheme authority Host.ofOpaque?

end ColumnLineage.Description.Address
