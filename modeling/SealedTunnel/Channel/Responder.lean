import SealedTunnel.Channel.Message
import SealedTunnel.Channel.Session

/-!
# The responder's handshake

* `Responder` — a long-lived identity: signed keys to hand out and the matching private keys.
* `StapledKeys` — signed keys as they are handed out, with the latest revocation status.
* `Responder.receiveMessage1`, `Responder.receiveMessage3` — the two steps, with the `Handshake`
  that has to be kept between them.
-/

namespace SealedTunnel

/-- A responder's identity. -/
structure Responder where
  /-- where its channels are used -/
  environment : Environment
  /-- the key material it hands out -/
  signed : SignedKeys
  /-- the matching private keys -/
  keys : KeyPair
  deriving DecidableEq, Repr

/-- Signed keys as they are handed out, with the latest revocation status. They are put together
from where their parts are kept, written, and never read. -/
structure StapledKeys where
  /-- the written form of the public keys -/
  payload : Bytes
  /-- the signature over it -/
  signature : Bytes
  /-- the hash of the certificate whose key signed -/
  certHash : Bytes
  /-- the version of the certificate data -/
  version : UInt64
  /-- the latest revocation status of the certificate -/
  ocsp : Bytes
  deriving DecidableEq, Repr

open Cbor (writeRecord writeBytes writeNatural) in
/-- The written form of stapled keys. -/
def StapledKeys.write (k : StapledKeys) : Bytes := writeRecord [
  ("signed_pub_keys", writeBytes k.payload), ("signature-ES256", writeBytes k.signature),
  ("cert_hash", writeBytes k.certHash), ("cdv", writeNatural k.version.toNat),
  ("ocsp_response", writeBytes k.ocsp)]

/-- What a responder keeps between message 2 and message 3. -/
structure Handshake where
  /-- the first encapsulation -/
  first : Encapsulation
  /-- message 1 followed by message 2 -/
  transcript : Bytes
  deriving DecidableEq, Repr

/-- An established session and when it ends. -/
structure TimedSession where
  /-- the session -/
  session : Session
  /-- its end, in seconds since the epoch -/
  expires : UInt64
  deriving DecidableEq, Repr

/-- How long a session lasts, in seconds. -/
def sessionLifetime : UInt64 := 86400

namespace Responder

variable {ρ : Type} (S : Suite ρ) (r : Responder)

/-- The responder's signed keys with a revocation status. -/
def staple (ocsp : Bytes) : StapledKeys where
  payload := r.signed.payload
  signature := r.signed.signature
  certHash := r.signed.certHash
  version := r.signed.version
  ocsp := ocsp

/-- Answer message 1. The revocation status of the certificate is stapled to the signed keys. -/
def receiveMessage1 (message1 ocsp : Bytes) : Draw ρ (Handshake × Bytes) := do
  let m : Message1 ← decodeMessage "M1" 1 message1
  let first ← Encapsulation.create S m.point m.kyber
  let keys ← HandshakeKeys.derive S first
  let sealedKeys ← Envelope.encrypt S keys.toInitiator (r.staple ocsp).write
  let message2 := Wire.write {
    messageType := "M2", point := first.point, ciphertext := first.ciphertext
    sealedKeys : Message2 }
  return ({ first, transcript := message1 ++ message2 }, message2)

/-- Check message 3 and answer it. A confirmation that does not decrypt is reported like one that
decrypts to another hash. -/
def receiveMessage3 (h : Handshake) (message3 : Bytes) (now : UInt64) :
    Draw ρ (TimedSession × Bytes) := do
  let handshakeKeys ← HandshakeKeys.derive S h.first
  let m : Message3 ← decodeMessage "M3" 3 message3
  let payload ← Envelope.decrypt S "message 3" handshakeKeys.toResponder m.sealedInner
  let inner : Message3Inner ← match Wire.decode payload with
    | .ok inner => pure inner
    | .error fault => throw (.malformedMessage 3 s!"inner layer: {fault.message}")
  if inner.erp || inner.eso then
    throw (.malformedMessage 3 "ERP and ESO are not supported")
  let second ← Encapsulation.recover S r.keys inner.point inner.ciphertext
  let keys ← SessionKeys.derive S h.first second
  let hash := S.hash (h.transcript ++ m.sealedInner)
  match Envelope.decrypt S "message 3 key confirmation" keys.confirmToResponder m.confirmation with
  | .error _ => throw (.transcriptMismatch 3)
  | .ok confirmed =>
    if confirmed ≠ hash then throw (.transcriptMismatch 3)
    let expected := S.hash (h.transcript ++ message3)
    let confirmation ← Envelope.encrypt S keys.confirmToInitiator expected
    let message4 := Wire.write { messageType := "M4", confirmation : Message4 }
    return ({
      session := Session.start .responder r.environment keys, expires := now + sessionLifetime },
      message4)

end Responder

end SealedTunnel
