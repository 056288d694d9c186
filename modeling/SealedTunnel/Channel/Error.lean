/-!
# Errors of the channel

* `ChannelError` — everything that can go wrong between the two ends of a channel, by cause.
* `ChannelError.message` — the text shown for it.
* `ChannelError.code`, `ChannelError.status` — how a responder reports it to its peer.
-/

namespace SealedTunnel

/-- What can go wrong between the two ends of a channel. -/
inductive ChannelError where
  /-- a public key or ciphertext of the wrong shape -/
  | malformedKey (reason : String)
  /-- a shared secret is empty -/
  | missingSecret (what : String)
  /-- a shared secret is not 32 bytes long -/
  | invalidSecretLength (what : String) (length : Nat)
  /-- the peer's certificate does not lead to a trusted root -/
  | untrustedChain (reason : String)
  /-- the stapled revocation status is unusable or bad -/
  | revocationCheckFailed (reason : String)
  /-- the certificate does not carry the required role -/
  | roleMismatch (reason : String)
  /-- the key material's signature does not hold -/
  | signatureInvalid (reason : String)
  /-- the certificate data could not be fetched -/
  | certificateUnavailable (reason : String)
  /-- the peer's keys are past their end of validity -/
  | expiredKeys (expiry now : UInt64)
  /-- the two ends saw different handshakes -/
  | transcriptMismatch (message : Nat)
  /-- a handshake message does not follow its format -/
  | malformedMessage (message : Nat) (reason : String)
  /-- a ciphertext does not authenticate -/
  | authentication (step : String)
  /-- a frame is out of sequence -/
  | counterMismatch (expected actual : UInt64)
  /-- a frame names other keys than the session's -/
  | keyIdMismatch
  /-- a frame does not follow its format -/
  | malformedFrame (reason : String)
  /-- no channel has this identifier -/
  | unknownCid
  /-- a fault of this end -/
  | internal (what : String)
  deriving DecidableEq, Repr

namespace ChannelError

/-- The text shown for an error. -/
def message : ChannelError → String
  | malformedKey reason => s!"malformed key: {reason}"
  | missingSecret what => s!"missing shared secret: {what}"
  | invalidSecretLength what length =>
    s!"invalid shared secret length: {what} has {length} bytes, expected 32"
  | untrustedChain reason => s!"untrusted certificate chain: {reason}"
  | revocationCheckFailed reason => s!"revocation check failed: {reason}"
  | roleMismatch reason => s!"role mismatch: {reason}"
  | signatureInvalid reason => s!"invalid signature: {reason}"
  | certificateUnavailable reason => s!"certificate data unavailable: {reason}"
  | expiredKeys expiry now => s!"server keys expired at {expiry}, now is {now}"
  | transcriptMismatch message => s!"transcript hash mismatch in message {message}"
  | malformedMessage message reason => s!"malformed message {message}: {reason}"
  | authentication step => s!"AEAD authentication failed: {step}"
  | counterMismatch expected actual => s!"counter mismatch: expected {expected}, got {actual}"
  | keyIdMismatch => "key id mismatch"
  | malformedFrame reason => s!"malformed frame: {reason}"
  | unknownCid => "unknown channel id"
  | internal what => s!"internal error: {what}"

/-- Whether the network, rather than the peer's behaviour, is to blame. -/
def isNetwork : ChannelError → Bool
  | certificateUnavailable _ => true
  | _ => false

/-- The HTTP status a responder answers with. -/
def status : ChannelError → Nat
  | malformedKey _ | malformedMessage .. | malformedFrame _ | missingSecret _
  | invalidSecretLength .. => 400
  | certificateUnavailable _ => 502
  | internal _ => 500
  | _ => 403

/-- The number an error message names the error by. -/
def code : ChannelError → Nat
  | malformedMessage .. => 1
  | malformedKey _ => 2
  | authentication _ => 3
  | transcriptMismatch _ => 5
  | malformedFrame _ => 6
  | counterMismatch .. => 7
  | keyIdMismatch => 8
  | unknownCid => 9
  | missingSecret _ | invalidSecretLength .. => 10
  | untrustedChain _ | revocationCheckFailed _ | roleMismatch _ | signatureInvalid _
  | certificateUnavailable _ | expiredKeys .. => 11
  | internal _ => 13

end ChannelError

end SealedTunnel
