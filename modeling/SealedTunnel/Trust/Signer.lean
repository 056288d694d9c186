import SealedTunnel.Channel.Message
import SealedTunnel.Trust.Consult

/-!
# Signing public keys

The responder's side of trust: its public keys, signed with the key of its
certificate.

* `PublicKeys.issue` — the public keys of a key pair.
* `PublicKeys.sign` — the same, signed.
-/

namespace SealedTunnel

/-- The public keys of a key pair, valid from `issued` on for so many seconds. -/
def PublicKeys.issue (keys : KeyPair) (issued validFor : UInt64) (comment : String) :
    PublicKeys where
  issued := issued
  expiry := issued + validFor
  comment := comment
  point := CurvePoint.ofBytes keys.point
  kyber := keys.kyberPublic

/-- A half of a signature in 32 bytes, if it fits. -/
def signaturePart (n : Nat) : Except ChannelError Bytes :=
  if n < 256 ^ 32 then .ok (Bytes.ofNat 32 n) else .error (.internal "ecdsa sig")

/-- Public keys signed with the key of the certificate `cert`. -/
def PublicKeys.sign {ρ : Type} (S : Suite ρ) (keys : PublicKeys) (cert : Bytes) (version : UInt64) :
    ExceptT ChannelError Consult SignedKeys := do
  let payload := Wire.write keys
  match (← Consult.ask (.sign .sha256 payload) : Except String (Except String Bytes)) with
  | .error _ => throw (.internal "signer")
  | .ok (.error _) => throw (.internal "sign")
  | .ok (.ok encoded) =>
    match (← Consult.ask (.decodeSignature encoded) : Except String (Nat × Nat)) with
    | .error _ => throw (.internal "ecdsa sig")
    | .ok (r, s) =>
      return {
        payload, signature := (← signaturePart r) ++ (← signaturePart s), certHash := S.hash cert
        version, ocsp := [] }

end SealedTunnel
