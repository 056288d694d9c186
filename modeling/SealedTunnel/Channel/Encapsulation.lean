import SealedTunnel.Channel.Key

/-!
# Hybrid encapsulation

Two shared secrets are sent at once: one by key agreement with an ephemeral
key, one by a post-quantum key encapsulation. An attacker has to break both.

* `Encapsulation` — both secrets and what travels for them.
* `Encapsulation.create`, `Encapsulation.recover` — the sender's and the receiver's side.
-/

namespace SealedTunnel

/-- Two shared secrets and the values that carry them to the peer. -/
structure Encapsulation where
  /-- the secret from key agreement -/
  agreed : Bytes
  /-- the encapsulated secret -/
  kyber : Bytes
  /-- the sender's ephemeral public key -/
  point : CurvePoint
  /-- the ciphertext of the encapsulated secret -/
  ciphertext : Bytes
  deriving DecidableEq, Repr

namespace Encapsulation

variable {ρ : Type} (S : Suite ρ)

/-- Encapsulate to the peer's public keys. The secret from key agreement is the first coordinate of
the shared point. -/
def create (peerPoint : CurvePoint) (peerKyber : Bytes) : Draw ρ Encapsulation := do
  let point ← peerPoint.encode
  checkKyberKey peerKyber
  S.locked do
    let scalar ← S.scalar (.malformedKey "ECDH encapsulation failed")
    let some shared := S.agree? scalar point
      | throw (.malformedKey "ECDH encapsulation failed")
    let random ← S.bytes 32
    let (ciphertext, kyber) := S.kyberEncapsulate peerKyber random.toList
    return {
      agreed := shared.take 32, kyber
      point := CurvePoint.ofBytes (S.publicPoint scalar), ciphertext }

/-- Recover what the peer encapsulated to `own`. -/
def recover (own : KeyPair) (point : CurvePoint) (ciphertext : Bytes) :
    Except ChannelError Encapsulation := do
  let encoded ← point.encode
  let some shared := S.agree? own.scalar encoded
    | throw (.malformedKey "ECDH decapsulation failed")
  if ciphertext.length ≠ kyberCiphertextSize then
    throw (.malformedKey
      s!"Kyber768 ciphertext must be {kyberCiphertextSize} bytes, got {ciphertext.length}")
  return {
    agreed := shared.take 32, kyber := S.kyberDecapsulate own.kyberSecret ciphertext
    point, ciphertext }

end Encapsulation

end SealedTunnel
