import SealedTunnel.Client.Endpoint
import SealedTunnel.Outer.Location
import SealedTunnel.Outer.Reply
import SealedTunnel.Setup.Settings

/-!
# The outer transport

What becomes of a request on its way out, and of the bytes that come back.

* `Transport` — the name of the calling program, and whether encryption is left to a proxy.
* `Transport.decorate` — the request as this transport sends it.
* `Departure` — a request as it reaches the peer; `Departure.ofRequest?`.
* `Transport.reply` — the answer in what the peer sends back.
-/

namespace SealedTunnel

/-- How requests leave. -/
structure Transport where
  /-- the name of the calling program -/
  userAgent : Bytes
  /-- whether encryption is left to a proxy -/
  downgrade : Bool
  deriving DecidableEq, Repr

/-- A request as it reaches the peer. -/
structure Departure where
  /-- where it goes -/
  location : Location
  /-- what to do -/
  method : Http.Method
  /-- the headers, the one for the host included -/
  headers : Outer.Headers
  /-- the body, possibly empty -/
  body : Bytes
  deriving DecidableEq, Repr

/-- The request on its way to the location of its identifier. A header for the host is kept. -/
def Departure.ofRequest? (request : Outer.Request) : Option Departure := do
  let location ← Location.ofUri? request.uri
  let host := Bytes.ofString location.hostHeader
  return {
    location, method := request.method, body := request.body
    headers :=
      if request.headers.values "host" = [] then request.headers.set "host" host
      else request.headers }

namespace Transport

/-- The transport with a name for the calling program, which must be fit for a header. -/
def make (userAgent : String) (downgrade : Bool) : Except SetupFault Transport :=
  let userAgent := Bytes.ofString userAgent
  if userAgent.all Http.isValue then .ok { userAgent, downgrade } else .error .invalidUserAgent

/-- The transport that settings ask for. -/
def ofSettings (s : Settings) : Except SetupFault Transport :=
  match s.userAgent with
  | some userAgent => make userAgent s.downgrade
  | none => .error .noUserAgent

/-- The request under the name of the calling program, and without encryption if that is left to a
proxy. -/
def decorate (t : Transport) (request : Outer.Request) : Except ClientError Outer.Request := do
  let headers := Http.userAgentHeaders.foldl (fun headers name => headers.set name t.userAgent)
    request.headers
  let uri ← if t.downgrade then SealedTunnel.downgrade request.uri else pure request.uri
  return { request with uri, headers }

/-- The request as it reaches the peer. -/
def send (t : Transport) (request : Outer.Request) : Except ClientError Departure := do
  match Departure.ofRequest? (← t.decorate request) with
  | some departure => return departure
  | none => throw (.exchange "builder error")

/-- The answer in what the peer sends back before it closes the connection. -/
def reply (departure : Departure) (received : Bytes) : Outer.Reply :=
  match Outer.Response.read departure.method received with
  | some response => .ok response
  | none => .error (.exchange "error sending request")

end Transport

end SealedTunnel
