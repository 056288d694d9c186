import SealedTunnel.Channel.Initiator
import SealedTunnel.Outer.Transport
import SealedTunnel.Trust.Store

/-!
# Establishing a channel

The handshake over outer requests. It stops at each request and goes on with
the reply, so that anything may happen in between.

* `Client` — what all channels of a client have in common.
* `Connection` — where an established channel is.
* `Establishment` — a handshake that waits for a reply; `Establishment.start`,
  `Establishment.resume`.

The requests are message 1, possibly one for the certificates that message 2 names, and message 3.
-/

namespace SealedTunnel

/-! ## Clients -/

/-- What all channels of a client have in common; `τ` is the type of its outer transport. -/
structure Client (τ : Type) where
  /-- the way out -/
  transport : τ
  /-- how responders are judged -/
  policy : TrustPolicy
  /-- where channels are used -/
  environment : Environment
  /-- the name of the calling program in tunnelled requests -/
  userAgent : String
  deriving DecidableEq, Repr

namespace Client

/-- A client of these parts. None of them may be missing, nor the name be empty. -/
def ofParts {τ : Type} (transport : Option τ) (policy : Option TrustPolicy)
    (environment : Environment) (userAgent : Option String) : Except SetupFault (Client τ) :=
  match transport, policy, userAgent.filter (· ≠ "") with
  | none, _, _ => .error .noTransport
  | _, none, _ => .error .noTrustPolicy
  | _, _, none => .error .noUserAgent
  | some transport, some policy, some userAgent =>
    .ok { transport, policy, environment, userAgent }

/-- The client that settings ask for. -/
def ofSettings (s : Settings) : ExceptT SetupFault Consult (Client Transport) := do
  s.check
  let transport ← Transport.ofSettings s
  let policy ← TrustPolicy.ofSettings s
  ofParts (some transport) (some policy) s.environment s.userAgent

end Client

/-! ## Work -/

/-- A computation of a client that draws random bytes and may fail. -/
abbrev Drawing (ρ α : Type) : Type := ExceptT ClientError (StateM ρ) α

/-- A computation of a client that also consults the authority. -/
abbrev Work (ρ α : Type) : Type := ExceptT ClientError (StateT ρ Consult) α

/-- A failure of the channel is one of the client. -/
def ofChannel {α : Type} : Except ChannelError α → Except ClientError α
  | .ok a => .ok a
  | .error e => .error (.channel e)

/-- Part of the channel's work. -/
def Drawing.ofDraw {ρ α : Type} (d : Draw ρ α) : Drawing ρ α := fun g =>
  let (result, g) := d.run g
  (ofChannel result, g)

/-- Work without questions. -/
def Work.ofDraw {ρ α : Type} (d : Draw ρ α) : Work ρ α := fun g =>
  let (result, g) := d.run g
  .done (ofChannel result, g)

/-- Work without random bytes. -/
def Work.ofCheck {ρ α : Type} (c : Check α) : Work ρ α := fun g => do
  return (ofChannel (← c.run), g)

/-! ## Handshakes -/

/-- Where an established channel is. -/
structure Connection where
  /-- the root of its host -/
  endpoint : Uri
  /-- its identifier -/
  cid : String
  /-- where its frames are posted -/
  uri : Uri
  deriving DecidableEq, Repr

/-- What a handshake waits for. -/
inductive Stage where
  /-- message 2 -/
  | message2 (initiator : Initiator)
  /-- the certificates, which `store` has to trust -/
  | certificates (store : TrustStore) (decision : TrustDecision) (cid : String)
  /-- message 4 -/
  | message4 (confirmation : Confirmation) (cid : String)
  deriving DecidableEq, Repr

/-- A handshake that waits for a reply. -/
structure Establishment where
  /-- the root of the host -/
  endpoint : Uri
  /-- the request without a reply -/
  request : Outer.Request
  /-- what the reply has to be -/
  stage : Stage
  deriving DecidableEq, Repr

/-- What follows a reply. -/
inductive Progress where
  /-- another request -/
  | waiting (next : Establishment)
  /-- the channel is established -/
  | established (connection : Connection) (session : Session)
  deriving DecidableEq, Repr

namespace Establishment

variable {ρ : Type} (S : Suite ρ)

/-- The request that posts a handshake message. -/
def post (uri : Uri) (message : Bytes) : Outer.Request :=
  Outer.post uri Outer.cborType Outer.cborType message

/-- Start a handshake with the host of `endpoint`. -/
def start (environment : Environment) (endpoint : String) : Drawing ρ Establishment := do
  let endpoint ← destination endpoint
  let initiator ← Drawing.ofDraw (Initiator.start S environment)
  let uri ← resolve endpoint handshakePath
  return { endpoint, request := post uri initiator.message1, stage := .message2 initiator }

/-- Go on with keys that are trusted. -/
def accept (endpoint : Uri) (decision : TrustDecision) (cid : String) (keys : PublicKeys)
    (now : UInt64) : Work ρ Progress := do
  let (confirmation, message3) ← Work.ofDraw (decision.accept S keys now)
  let uri ← resolve endpoint cid
  return .waiting { endpoint, request := post uri message3, stage := .message4 confirmation cid }

/-- A point in time for the authority, which counts with sign. -/
def instant (now : UInt64) : Int := min now.toNat (2 ^ 63 - 1)

/-- Go on with the reply. -/
def resume (policy : TrustPolicy) (now : UInt64) (e : Establishment) (reply : Outer.Reply) :
    Work ρ Progress :=
  match e.stage with
  | .message2 initiator => do
    let response ← e.request.success reply
    let cid ← ofChannel (channelId (response.headers.values "vau-cid").head?)
    let decision ← ofChannel (initiator.receiveMessage2 S response.body)
    match policy with
    | .insecure => accept S e.endpoint decision cid (← ofChannel decision.signed.publicKeys) now
    | .verify store =>
      let signed := decision.signed
      let request ← ofChannel (CertData.request e.endpoint signed.certHash signed.version)
      return .waiting { e with request, stage := .certificates store decision cid }
  | .certificates store decision cid => do
    let data ← ofChannel (CertData.ofReply e.request reply)
    let keys ← Work.ofCheck
      (store.verify S TrustPolicy.responderOid decision.signed data (instant now))
    accept S e.endpoint decision cid keys now
  | .message4 confirmation cid => do
    let response ← e.request.success reply
    let session ← ofChannel (confirmation.receiveMessage4 S response.body)
    return .established { endpoint := e.endpoint, cid, uri := e.request.uri } session

end Establishment

end SealedTunnel
