import ColumnLineage.Description.Authority
import ColumnLineage.Settings.Document

/-!
Proxies. The environment may name a proxy, which then takes the requests in place of the servers
they are meant for, all but those that the environment excepts: `takes`.
-/

namespace ColumnLineage.Description.Proxy

open Settings (Environment)

/-- The variables that may name the proxy for a scheme. Those for the plain scheme do not count
where another variable tells that the program itself answers a request. -/
def variableNames (environment : Environment) (scheme : Text) : List Text :=
  let general := ["ALL_PROXY".toList, "all_proxy".toList]
  if scheme = "https".toList then "HTTPS_PROXY".toList :: "https_proxy".toList :: general
  else if scheme ≠ "http".toList then []
  else if (environment.value? "REQUEST_METHOD".toList).isSome then general
  else "HTTP_PROXY".toList :: "http_proxy".toList :: general

/-- Whether an address leads to a server that can be a proxy. -/
def isProxyAddress (names : Names) (address : Text) : Bool :=
  match Address.destination names address with
  | .host scheme _ => scheme = "http".toList || scheme = "https".toList
  | _ => false

/-- Whether a text names a proxy: an address with one of two schemes, or one without its scheme. -/
def isProxy (names : Names) (value : Text) : Bool :=
  !(Text.trim value).isEmpty &&
    match Address.destination names value with
    | .hostless => isProxyAddress names ("http://".toList ++ value)
    | _ => isProxyAddress names value

/-- The number of an entry and how many numbers next to it are meant too, by how many of its bits
have to agree. -/
def network? (number? : Text → Option Nat) (width : Nat) (entry : Text) : Option (Nat × Nat) :=
  match entry.splitOn '/' with
  | [host] => (number? host).map (·, 1)
  | [host, bits] => do
    let bits ← (ColumnLineage.number? 10 bits).filter (· ≤ width)
    return (← number? host, Nat.pow 2 (width - bits))
  | _ => none

/-- Whether a number lies in the network of an entry, if that is one. -/
def isWithin (number : Nat) (network? : Option (Nat × Nat)) : Bool :=
  network?.any fun (first, size) => number / size = first / size

/-- Whether an entry of the exceptions covers a host. A numeric host is covered by networks only,
any other one by its own name, by a name that it ends with, and by an asterisk. -/
def covers (entry : Text) : Host → Bool
  | .four number => isWithin number (network? Host.dotted? 32 entry)
  | .six number => isWithin number (network? Host.six? 128 entry)
  | .name host =>
    let name := if entry.head? = some '.' then entry.tail else entry
    entry = ['*'] || host = name || ('.' :: name).isSuffixOf host

/-- Whether the environment excepts a host. An empty list excepts none. -/
def isExcepted (environment : Environment) (host : Host) : Bool :=
  let exceptions :=
    (environment.value? "NO_PROXY".toList <|> environment.value? "no_proxy".toList).getD []
  !exceptions.isEmpty && (exceptions.splitOn ',').any fun entry => covers (Text.trim entry) host

/-- Whether a proxy of the environment takes the requests to an address. -/
def takes (names : Names) (environment : Environment) (address : Text) : Bool :=
  match Address.destination names address with
  | .host scheme host =>
    !isExcepted environment host &&
      (variableNames environment scheme).any fun name =>
        (environment.value? name).any (isProxy names)
  | _ => false

end ColumnLineage.Description.Proxy
