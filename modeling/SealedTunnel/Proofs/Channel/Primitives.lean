import SealedTunnel.Channel.Encapsulation
import SealedTunnel.Channel.Envelope
import SealedTunnel.Proofs.Crypto.Gcm
import SealedTunnel.Proofs.Crypto.Sizes

/-!
# What is assumed of the primitives

* `Suite.Inverts` — decryption undoes encryption.
* `Suite.Serves` — nobody failed while using the generator, and encryption succeeds up to a limit.
* `Suite.Tagged`, `Suite.Encapsulates`, `Suite.Sized` — ciphertexts, what is encapsulated, and
  everything has the size that its type promises.
* `Suite.Delivers` — what keys are made from has it, and so has what a handshake encrypts.
* `KeyPair.Sized`, `KeyPair.Recovers` — a key pair recovers what is encapsulated to it.

The primitives that the protocol is run with keep all promises about sizes, encrypt everything, and
their decryption undoes encryption.
-/

namespace SealedTunnel

namespace Suite

variable {ρ : Type}

/-- What was encrypted under a key of the right size decrypts to what it was. -/
def Inverts (S : Suite ρ) : Prop := ∀ key iv aad plain sealedText : Bytes, key.length = 32 →
  iv.length = ivSize → S.encrypt? key iv aad plain = some sealedText →
  S.decrypt? key iv aad sealedText = some plain

theorem standard_inverts : standard.Inverts := by
  intro _ _ aad plain _ hkey hiv hsealed
  obtain rfl := Option.some.inj hsealed
  exact Gcm.decrypt?_encrypt hkey hiv aad plain

/-- Nothing stands in the way of who draws and encrypts: nobody failed while using the generator,
and whatever is shorter than the limit can be encrypted under a key and an IV of the right sizes. -/
structure Serves (S : Suite ρ) (limit : Nat) : Prop where
  /-- nobody failed while using the generator -/
  unpoisoned : ∀ g, S.poisoned g = false
  /-- what is shorter than the limit can be encrypted -/
  encrypts : ∀ key iv aad plain : Bytes, key.length = 32 → iv.length = ivSize →
    plain.length < limit → ∃ sealedText, S.encrypt? key iv aad plain = some sealedText

theorem standard_serves (limit : Nat) : standard.Serves limit where
  unpoisoned := fun _ => rfl
  encrypts := fun _ _ _ _ _ _ _ => ⟨_, rfl⟩

/-- A ciphertext is longer than its plaintext by the tag. -/
def Tagged (S : Suite ρ) : Prop := ∀ key iv aad plain sealedText : Bytes, key.length = 32 →
  iv.length = ivSize → S.encrypt? key iv aad plain = some sealedText →
  sealedText.length = plain.length + tagSize

theorem standard_tagged : standard.Tagged := by
  intro _ _ aad plain _ hkey hiv hsealed
  obtain rfl := Option.some.inj hsealed
  exact Gcm.length_encrypt hkey hiv aad plain

/-- What is encapsulated has the size that its type promises. -/
structure Encapsulates (S : Suite ρ) : Prop where
  /-- a public point has 64 bytes -/
  publicPoint : ∀ scalar, (S.publicPoint scalar).length = 64
  /-- and so has a shared one -/
  agree : ∀ scalar point shared, S.agree? scalar point = some shared → shared.length = 64
  /-- the size of a ciphertext of the key encapsulation -/
  ciphertext : ∀ key random, (S.kyberEncapsulate key random).1.length = kyberCiphertextSize
  /-- an encapsulated secret has 32 bytes -/
  secret : ∀ key random, (S.kyberEncapsulate key random).2.length = 32

theorem standard_encapsulates : standard.Encapsulates where
  publicPoint := P256.length_publicKey
  agree := fun _ _ _ h => P256.length_agree? h
  ciphertext := fun key random => (Kyber.length_encapsulate key random).1
  secret := fun key random => (Kyber.length_encapsulate key random).2

/-- What the primitives return has the size that its type promises. -/
structure Sized (S : Suite ρ) : Prop extends Encapsulates S where
  /-- a ciphertext is longer than its plaintext by the tag -/
  tagged : S.Tagged
  /-- a hash has 32 bytes -/
  hash : ∀ b, (S.hash b).length = 32
  /-- as much key material as was asked for -/
  derive : ∀ secret length, (S.derive secret length).length = length

theorem standard_sized : standard.Sized where
  toEncapsulates := standard_encapsulates
  tagged := standard_tagged
  hash := Sha256.length_digest
  derive := Hkdf.length_derive

/-- What keys are made from has the size that its type promises, and so has what a handshake
encrypts on its own account. No more key material is asked for than the derivation can yield. -/
structure Delivers (S : Suite ρ) (limit : Nat) : Prop
    extends Encapsulates S, Serves S limit where
  /-- as much key material as was asked for -/
  derive : ∀ secret length, length ≤ 255 * 32 → (S.derive secret length).length = length
  /-- a decapsulated secret has 32 bytes -/
  decapsulate : ∀ key ciphertext, (S.kyberDecapsulate key ciphertext).length = 32
  /-- and so has a hash -/
  hash : ∀ b, (S.hash b).length = 32

theorem standard_delivers (limit : Nat) : standard.Delivers limit where
  toEncapsulates := standard_encapsulates
  toServes := standard_serves limit
  derive := fun secret length _ => Hkdf.length_derive secret length
  decapsulate := Kyber.length_decapsulate
  hash := Sha256.length_digest

end Suite

namespace KeyPair

/-- The public keys have the size that their types promise. -/
structure Sized (own : KeyPair) : Prop where
  /-- a point has 64 bytes -/
  point : own.point.length = 64
  /-- the size of an encapsulation key -/
  kyber : own.kyberPublic.length = kyberKeySize

/-- The key pair recovers what is encapsulated to it from the generator state `g`: a usable private
key is drawn there, both sides agree on a point, and decapsulation gives the secret back. -/
def Recovers {ρ : Type} (S : Suite ρ) (own : KeyPair) (g : ρ) : Prop :=
  ∃ scalar g₁ shared, S.scalar? 100 g = (some scalar, g₁) ∧
    S.agree? scalar own.point = some shared ∧
    S.agree? own.scalar (S.publicPoint scalar) = some shared ∧
    let random := (S.draw 32 g₁).1.toList
    S.kyberDecapsulate own.kyberSecret (S.kyberEncapsulate own.kyberPublic random).1 =
      (S.kyberEncapsulate own.kyberPublic random).2

end KeyPair

end SealedTunnel
