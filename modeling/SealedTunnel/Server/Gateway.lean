import SealedTunnel.Channel.Registry
import SealedTunnel.Client.Endpoint
import SealedTunnel.Outer.Message

/-!
# The gateway of a responder

The responder's side of the outer exchanges.

* `Gateway` — a responder, its published certificates and its channels.
* `Route` — what a request is about; `Route.ofRequest`.
* `Gateway.answer` — the answer to a request. What goes wrong is reported to the peer.
-/

namespace SealedTunnel

/-- A responder, its published certificates and its channels. -/
structure Gateway (ρ : Type) where
  /-- the identity -/
  responder : Responder
  /-- the revocation status of its certificate -/
  ocsp : Bytes
  /-- the certificates, as they are published -/
  certData : Bytes
  /-- the channels -/
  registry : Registry
  /-- the generator for everything random -/
  generator : ρ

/-- What a request is about. -/
inductive Route where
  /-- a handshake starts -/
  | message1
  /-- the handshake of a channel goes on -/
  | message3 (cid : String)
  /-- a frame for a channel -/
  | frame (cid : String)
  /-- the certificates -/
  | certData (path : String)
  deriving DecidableEq, Repr

/-- What a request is about. Frames are told from handshake messages by the answer they accept. -/
def Route.ofRequest (request : Outer.Request) : Route :=
  let path := request.uri.target.path
  if request.method ≠ .post then .certData path
  else if path = handshakePath then .message1
  else if request.headers.values "accept" = [Bytes.ofString Outer.cborType] then .message3 path
  else .frame path

namespace Gateway

variable {ρ : Type} (S : Suite ρ) (g : Gateway ρ)

/-- Answer message 1, and keep the handshake under `cid`. -/
def message1 (cid : String) (body : Bytes) : Except ChannelError Bytes × Gateway ρ :=
  match (g.responder.receiveMessage1 S body g.ocsp).run g.generator with
  | (.ok (handshake, message2), generator) =>
    (.ok message2, { g with generator, registry := g.registry.begin cid handshake })
  | (.error e, generator) => (.error e, { g with generator })

/-- Answer message 3 of a channel. -/
def message3 (now : UInt64) (cid : String) (body : Bytes) :
    Except ChannelError Bytes × Gateway ρ :=
  match g.registry.finish cid with
  | (.error e, registry) => (.error e, { g with registry })
  | (.ok handshake, registry) =>
    match (g.responder.receiveMessage3 S handshake body now).run g.generator with
    | (.ok (session, message4), generator) =>
      (.ok message4, { g with generator, registry := registry.establish cid session })
    | (.error e, generator) => (.error e, { g with generator, registry })

/-- Decrypt a frame of a channel. -/
def openFrame (now : UInt64) (cid : String) (body : Bytes) :
    Except ChannelError Bytes × Gateway ρ :=
  let (result, registry) := g.registry.withSession cid now (Session.decrypt S body).run
  (result.bind id, { g with registry })

/-- Encrypt a frame of a channel. -/
def sealFrame (now : UInt64) (cid : String) (plain : Bytes) :
    Except ChannelError Bytes × Gateway ρ :=
  let (result, registry) := g.registry.withSession cid now fun session =>
    let (result, session, generator) := (Session.encrypt S plain).run (session, g.generator)
    ((result, generator), session)
  match result with
  | .ok (result, generator) => (result.map Frame.toBytes, { g with registry, generator })
  | .error e => (.error e, { g with registry })

/-- Answer a frame of a channel; `handle` answers the request in it. -/
def frame (now : UInt64) (handle : Bytes → Except ChannelError Bytes) (cid : String)
    (body : Bytes) : Except ChannelError Bytes × Gateway ρ :=
  match g.openFrame S now cid body with
  | (.error e, g) => (.error e, g)
  | (.ok plain, g) =>
    match handle plain with
    | .error e => (.error e, g)
    | .ok answer => g.sealFrame S now cid answer

/-- The answer with a body, or with a report of what went wrong. -/
def respond (headers : Outer.Headers) : Except ChannelError Bytes → Outer.Response
  | .ok body => { status := 200, headers, body }
  | .error e => { status := e.status, headers := [], body := e.report }

/-- Answer a request. A new channel is kept under `cid`, which is announced if `announced`. -/
def answer (now : UInt64) (cid : String) (announced : Bool)
    (handle : Bytes → Except ChannelError Bytes) (request : Outer.Request) :
    Outer.Response × Gateway ρ :=
  match Route.ofRequest request with
  | .message1 =>
    let (result, g) := g.message1 S cid request.body
    (respond (if announced then [("vau-cid", Bytes.ofString cid)] else []) result, g)
  | .message3 cid =>
    let (result, g) := g.message3 S now cid request.body
    (respond [] result, g)
  | .frame cid =>
    let (result, g) := g.frame S now handle cid request.body
    (respond [] result, g)
  | .certData path =>
    let signed := g.responder.signed
    let status := if path = certDataPath signed.certHash signed.version then 200 else 404
    ({ status, headers := [], body := g.certData }, g)

end Gateway

end SealedTunnel
