import SealedTunnel.Channel.Frame
import SealedTunnel.Channel.KeySchedule

/-!
# Sessions

One end of an established channel. Frames are numbered: an initiator counts its
requests up, a responder answers each request under the request's own number,
and both accept only the number after the last one they accepted.

* `Session` — keys and two counters; `Session.start`.
* `Session.encrypt`, `Session.decrypt` — the next frame out and in.
-/

namespace SealedTunnel

/-- One end of an established channel. -/
structure Session where
  /-- which end -/
  role : Role
  /-- where the channel is used -/
  environment : Environment
  /-- the name of the keys -/
  keyId : Bytes
  /-- the key of outgoing frames -/
  sealKey : Bytes
  /-- the key of incoming frames -/
  openKey : Bytes
  /-- the counter of the last frame sent -/
  sent : UInt64
  /-- the counter of the last frame accepted -/
  received : UInt64
  deriving DecidableEq, Repr

namespace Session

/-- A session before its first frame. -/
def start (role : Role) (environment : Environment) (keys : SessionKeys) : Session where
  role := role
  environment := environment
  keyId := keys.keyId
  sealKey := match role with
    | .initiator => keys.requests
    | .responder => keys.responses
  openKey := match role with
    | .initiator => keys.responses
    | .responder => keys.requests
  sent := 0
  received := 0

/-- The largest counter. -/
def lastCounter : UInt64 := 0xffffffffffffffff

/-- The counter of the next frame sent. -/
def nextOutgoing (s : Session) : Except ChannelError UInt64 :=
  match s.role with
  | .initiator =>
    if s.sent = lastCounter then .error (.internal "request counter exhausted")
    else .ok (s.sent + 1)
  | .responder =>
    if s.sent < s.received then .ok s.received
    else .error (.counterMismatch (s.sent + 1) s.received)

variable {ρ : Type} (S : Suite ρ)

/-- The next frame sent. The session is changed in place, next to the generator that it draws
from. -/
def encrypt (plain : Bytes) : Draw (Session × ρ) Frame := do
  let s := (← get).1
  let counter ← s.nextOutgoing
  let salt ← (S.random 4).beside
  checkCipherKey s.sealKey
  let frame ← Frame.encrypt S s.sealKey s.keyId s.environment s.role.outgoing counter salt plain
  modify fun (s, g) => ({ s with sent := counter }, g)
  return frame

/-- The payload of the next frame accepted. The session is changed in place. -/
def decrypt (wire : Bytes) : ExceptT ChannelError (StateM Session) Bytes := do
  let frame ← Frame.parse wire
  let s ← get
  if s.received = lastCounter then throw (.internal "response counter exhausted")
  let expected := s.received + 1
  if frame.counter ≠ expected ∨ (s.role = .initiator ∧ s.sent < frame.counter) then
    throw (.counterMismatch expected frame.counter)
  checkCipherKey s.openKey
  let plain ← frame.decrypt S s.openKey s.keyId s.environment s.role.incoming
  modify fun s => { s with received := frame.counter }
  return plain

end Session

end SealedTunnel
