import SealedTunnel.Channel.Encapsulation

/-!
# Key schedule

* `HandshakeKeys` — from the first encapsulation; they protect the rest of the handshake.
* `SessionKeys` — from both encapsulations; they confirm the handshake and protect the channel.

Every secret enters with exactly 32 bytes, so what is fed to the derivation
can be taken apart again.
-/

namespace SealedTunnel

/-- Keys for the handshake's own ciphertexts. -/
structure HandshakeKeys where
  /-- initiator to responder -/
  toResponder : Bytes
  /-- responder to initiator -/
  toInitiator : Bytes
  deriving DecidableEq, Repr

/-- Keys of an established channel. -/
structure SessionKeys where
  /-- confirms the handshake to the responder -/
  confirmToResponder : Bytes
  /-- protects requests -/
  requests : Bytes
  /-- confirms the handshake to the initiator -/
  confirmToInitiator : Bytes
  /-- protects responses -/
  responses : Bytes
  /-- names the keys in every frame -/
  keyId : Bytes
  deriving DecidableEq, Repr

/-- A shared secret has exactly 32 bytes. -/
def checkedSecret (secret : Bytes) (what : String) : Except ChannelError Bytes :=
  if secret = [] then .error (.missingSecret what)
  else if secret.length ≠ 32 then .error (.invalidSecretLength what secret.length)
  else .ok secret

/-- Both secrets of an encapsulation, checked; `which` names the encapsulation in errors. -/
def Encapsulation.secrets (e : Encapsulation) (which : String) : Except ChannelError Bytes := do
  let agreed ← checkedSecret e.agreed s!"{which} ECDH secret"
  let kyber ← checkedSecret e.kyber s!"{which} Kyber secret"
  return agreed ++ kyber

variable {ρ : Type} (S : Suite ρ)

/-- The requested length of key material, or an error if the derivation yields another one. -/
def expand (secret : Bytes) (length : Nat) : Except ChannelError Bytes :=
  let material := S.derive secret length
  if material.length = length then .ok material else .error (.internal "hkdf output length")

/-- The keys that follow from the first encapsulation. -/
def HandshakeKeys.derive (first : Encapsulation) : Except ChannelError HandshakeKeys := do
  let secret ← first.secrets "first"
  let material ← expand S secret 64
  return { toResponder := material.take 32, toInitiator := material.drop 32 }

/-- Key number `i` in key material. -/
def keyAt (material : Bytes) (i : Nat) : Except ChannelError Bytes := do
  let key ← exactly "hkdf output length" 32 ((material.drop (32 * i)).take 32)
  return key.toList

/-- The keys that follow from both encapsulations. -/
def SessionKeys.derive (first second : Encapsulation) : Except ChannelError SessionKeys := do
  let firstSecrets ← first.secrets "first"
  let secondSecrets ← second.secrets "second"
  let material ← expand S (firstSecrets ++ secondSecrets) 160
  return {
    confirmToResponder := ← keyAt material 0, requests := ← keyAt material 1
    confirmToInitiator := ← keyAt material 2, responses := ← keyAt material 3
    keyId := ← keyAt material 4 }

end SealedTunnel
