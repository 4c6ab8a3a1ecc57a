import RingOverlay.Text.Numeral
import RingOverlay.Uri

/-!
# `RingOverlay.Loopback.Address` — endpoints as addresses

An endpoint is an address of the HTTP scheme, the scheme itself left out or written in front. Only its
host and port are used.

## Contents
- `Address`, `Address.ofEndpoint?`.
-/

namespace RingOverlay.Loopback

open Text

/-! ## Parts -/

/-- The host and the port of an endpoint. -/
structure Address where
  host : String
  port : Nat
  deriving DecidableEq, Inhabited, Repr

namespace Address

/-- The port that is meant where none is given. -/
def defaultPort : Nat := 80

/-- The host and the port of an authority, its user part left out. -/
def ofAuthority (authority : List Char) : Address :=
  let shown := (authority.reverse.takeWhile (· ≠ '@')).reverse
  let port := (shown.reverse.takeWhile (· ≠ ':')).reverse
  let bracketed := shown.getLast? = some ']'
  if port.length = shown.length ∨ bracketed then ⟨String.ofList shown, defaultPort⟩
  else ⟨String.ofList (shown.take (shown.length - port.length - 1)),
    ((numeralIn? 10 port).filter (· < 0x10000)).getD defaultPort⟩

/-- What an endpoint may start with, so that it is named in full. -/
def schemes : List String := ["http://", "https://"]

/-- An endpoint in full: the first scheme is put in front where none stands. -/
def inFull (endpoint : String) : String :=
  if schemes.any (·.toList.isPrefixOf endpoint.toList) then endpoint else "http://" ++ endpoint

/-- The host and the port of an endpoint, if it is an address with a host. -/
def ofEndpoint? (endpoint : String) : Option Address :=
  (Uri.ofText? (inFull endpoint)).map fun uri => ofAuthority uri.authority.toList

end Address

end RingOverlay.Loopback
