import SealedTunnel.Bytes
import SealedTunnel.Outer.Host
import SealedTunnel.Uri.Basic

/-!
# Locations

Where a request goes, in the form in which it leaves: one way of writing a
host, no port that goes without saying, and a path without steps up.

* `Location.target` — path and query as they leave.
* `Location.ofUri?` — the location of an absolute identifier.
* `Location.hostHeader` — how the peer is addressed.
-/

namespace SealedTunnel

/-- Where a request goes. -/
structure Location where
  /-- whether the transport is encrypted -/
  encrypted : Bool
  /-- the host -/
  host : String
  /-- the port, if it is not the standard one -/
  port : Option Nat
  /-- path and query -/
  target : String
  deriving DecidableEq, Repr

namespace Location

/-! ## Paths -/

/-- A character as its UTF-8 bytes, each in hexadecimal after a percent sign. -/
def percent (c : Char) : List Char :=
  (Bytes.ofString (String.singleton c)).flatMap fun b =>
    ['%', (Nat.digitChar (b.toNat / 16)).toUpper, (Nat.digitChar (b.toNat % 16)).toUpper]

/-- A text in which every character but visible ASCII, and those in `marks`, is encoded. -/
def encode (marks : List Char) (text : String) : String :=
  String.ofList (text.toList.flatMap fun c =>
    if c.toNat ≤ 0x20 || 0x7f ≤ c.toNat || marks.contains c then percent c else [c])

/-- The characters that a path does not have. -/
def pathMarks : List Char := ['"', '#', '<', '>', '?', '\x60', '\x7b', '\x7d']

/-- The characters that a query does not have. -/
def queryMarks : List Char := ['"', '#', '<', '>', '\'']

/-- Whether a part of a path means the place it is in. -/
def isHere (part : String) : Bool := [".", "%2e"].any (Text.sameWord part)

/-- Whether a part of a path means the place above. -/
def isUp (part : String) : Bool := ["..", ".%2e", "%2e.", "%2e%2e"].any (Text.sameWord part)

/-- Walk along the parts of a path; `above` holds the way so far, last part first. -/
def walk : (above : List String) → List String → List String
  | above, [] => above.reverse
  | above, [last] =>
    if isUp last then ("" :: above.tail).reverse
    else if isHere last then ("" :: above).reverse
    else (last :: above).reverse
  | above, part :: rest =>
    if isUp part then walk above.tail rest
    else if isHere part then walk above rest
    else walk (part :: above) rest

/-- A path without steps; a backslash counts as a slash. -/
def path (text : String) : String :=
  let slashed := text.toList.map fun c => if c = '\\' then '/' else c
  let parts := (String.ofList slashed).splitOn "/"
  "/" ++ "/".intercalate (walk [] (parts.drop 1))

/-- Path and query as they leave. -/
def leaving (t : Target) : String :=
  encode pathMarks (path (if t.path = "" then "/" else t.path)) ++
    match t.query with
    | some query => "?" ++ encode queryMarks query
    | none => ""

/-! ## Hosts and ports -/

/-- What follows the host and a colon, if there is a colon behind the host. -/
def portText? (hostPort : List Char) : Option (List Char) :=
  match hostPort.dropWhile (· ≠ ']') with
  | ']' :: rest =>
    match rest with
    | ':' :: port => some port
    | _ => none
  | _ =>
    match hostPort.dropWhile (· ≠ ':') with
    | _ :: port => some port
    | [] => none

/-- The standard port. -/
def standardPort (encrypted : Bool) : Nat := if encrypted then 443 else 80

/-- The port, if it is not the standard one. A text that is no number of 16 bits has no location. -/
def port? (encrypted : Bool) (hostPort : List Char) : Option (Option Nat) :=
  match portText? hostPort with
  | none | some [] => some none
  | some digits => do
    let n ← Host.number? 10 digits
    if 2 ^ 16 ≤ n then none
    else if n = standardPort encrypted then return none
    else return some n

/-- The host part of host and port. -/
def hostText (hostPort : List Char) : String :=
  let size := match portText? hostPort with
    | some port => hostPort.length - (port.length + 1)
    | none => hostPort.length
  String.ofList (hostPort.take size)

/-- The location of an absolute identifier. -/
def ofUri? : Uri → Option Location
  | .absolute scheme authority target => do
    let encrypted ← match scheme with
      | .http => some false
      | .https => some true
      | .other _ => none
    let hostPort := authority.hostPort
    return {
      encrypted, host := ← Host.canonical? (hostText hostPort)
      port := ← port? encrypted hostPort, target := leaving target }
  | _ => none

/-- How the peer is addressed. -/
def hostHeader (l : Location) : String :=
  match l.port with
  | some port => l.host ++ ":" ++ toString port
  | none => l.host

end Location

end SealedTunnel
