import SealedTunnel.Suite

/-!
# Envelopes

Encryption inside the handshake: a random IV, then the ciphertext, then the
tag.

* `checkCipherKey` — a key for authenticated encryption has 32 bytes.
* `Envelope.encrypt`, `Envelope.decrypt`.
-/

namespace SealedTunnel

/-- The size of an IV. -/
def ivSize : Nat := 12

/-- The size of an authentication tag. -/
def tagSize : Nat := 16

/-- A key for authenticated encryption has 32 bytes. -/
def checkCipherKey (key : Bytes) : Except ChannelError Unit :=
  if key.length = 32 then .ok () else .error (.internal "aead key")

namespace Envelope

variable {ρ : Type} (S : Suite ρ)

/-- Encrypt under a fresh IV. -/
def encrypt (key plain : Bytes) : Draw ρ Bytes := do
  checkCipherKey key
  let iv ← S.random ivSize
  let sealedText ← S.encrypt key iv.toList [] plain
  return iv.toList ++ sealedText

/-- Decrypt; `step` names the handshake step in the error. -/
def decrypt (step : String) (key envelope : Bytes) : Except ChannelError Bytes := do
  checkCipherKey key
  if envelope.length < ivSize + tagSize then throw (.authentication step)
  let split := envelope.length - tagSize
  let iv ← exactly "iv" ivSize (envelope.take ivSize)
  let tag ← exactly "tag" tagSize (envelope.drop split)
  match S.decrypt? key iv.toList [] ((envelope.take split).drop ivSize ++ tag.toList) with
  | some plain => return plain
  | none => throw (.authentication step)

end Envelope

end SealedTunnel
