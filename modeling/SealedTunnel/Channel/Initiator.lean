import SealedTunnel.Channel.Message
import SealedTunnel.Channel.Session

/-!
# The initiator's handshake

A handshake moves through one type per stage, so that no step can be taken
twice or out of order.

* `Initiator` — has sent message 1.
* `TrustDecision` — has opened message 2 and waits for the caller's verdict on the signed keys.
* `Confirmation` — has sent message 3 and waits for message 4.
-/

namespace SealedTunnel

/-- The initiator after message 1. -/
structure Initiator where
  /-- where the channel is to be used -/
  environment : Environment
  /-- the keys of this handshake -/
  keys : KeyPair
  /-- message 1 as it was sent -/
  message1 : Bytes
  deriving DecidableEq, Repr

/-- The initiator between message 2 and the verdict on the responder's keys. -/
structure TrustDecision where
  /-- where the channel is to be used -/
  environment : Environment
  /-- message 1 as it was sent -/
  message1 : Bytes
  /-- message 2 as it was received -/
  message2 : Bytes
  /-- the first encapsulation -/
  first : Encapsulation
  /-- the keys that follow from it -/
  handshakeKeys : HandshakeKeys
  /-- what has to be trusted -/
  signed : SignedKeys
  deriving DecidableEq, Repr

/-- The initiator after message 3. -/
structure Confirmation where
  /-- where the channel is to be used -/
  environment : Environment
  /-- the channel's keys -/
  keys : SessionKeys
  /-- the hash that message 4 has to confirm -/
  expected : Bytes
  deriving DecidableEq, Repr

variable {ρ : Type} (S : Suite ρ)

/-- Start a handshake with these keys. -/
def Initiator.ofKeys (environment : Environment) (keys : KeyPair) : Initiator where
  environment := environment
  keys := keys
  message1 := Wire.write
    { messageType := "M1", point := CurvePoint.ofBytes keys.point
      kyber := keys.kyberPublic : Message1 }

/-- Start a handshake with fresh keys. -/
def Initiator.start (environment : Environment) : Draw ρ Initiator := do
  let keys ← KeyPair.generate S
  return Initiator.ofKeys environment keys

/-- Open message 2. Nothing in it is trusted yet. -/
def Initiator.receiveMessage2 (i : Initiator) (message2 : Bytes) :
    Except ChannelError TrustDecision := do
  let m : Message2 ← decodeMessage "M2" 2 message2
  let first ← Encapsulation.recover S i.keys m.point m.ciphertext
  let handshakeKeys ← HandshakeKeys.derive S first
  let payload ← Envelope.decrypt S "message 2" handshakeKeys.toInitiator m.sealedKeys
  match Wire.decode payload with
  | .error fault => throw (.malformedMessage 2 s!"signed public keys: {fault.message}")
  | .ok signed =>
    return {
      environment := i.environment, message1 := i.message1, message2, first, handshakeKeys, signed }

/-- Go on with the responder's keys, once they are trusted, and produce message 3. -/
def TrustDecision.accept (t : TrustDecision) (keys : PublicKeys) (now : UInt64) :
    Draw ρ (Confirmation × Bytes) := do
  if keys.expiry < now then throw (.expiredKeys keys.expiry now)
  let second ← Encapsulation.create S keys.point keys.kyber
  let sessionKeys ← SessionKeys.derive S t.first second
  let inner : Message3Inner := {
    point := second.point, ciphertext := second.ciphertext, erp := false, eso := false }
  let sealedInner ← Envelope.encrypt S t.handshakeKeys.toResponder (Wire.write inner)
  let hash := S.hash (t.message1 ++ t.message2 ++ sealedInner)
  let confirmation ← Envelope.encrypt S sessionKeys.confirmToResponder hash
  let message3 := Wire.write { messageType := "M3", sealedInner, confirmation : Message3 }
  return ({
    environment := t.environment, keys := sessionKeys,
    expected := S.hash (t.message1 ++ t.message2 ++ message3) }, message3)

/-- Check the responder's confirmation and open the channel. -/
def Confirmation.receiveMessage4 (c : Confirmation) (message4 : Bytes) :
    Except ChannelError Session := do
  let m : Message4 ← decodeMessage "M4" 4 message4
  match Envelope.decrypt S "message 4" c.keys.confirmToInitiator m.confirmation with
  | .error _ => throw (.transcriptMismatch 4)
  | .ok hash =>
    if hash ≠ c.expected then throw (.transcriptMismatch 4)
    return Session.start .initiator c.environment c.keys

end SealedTunnel
