import SealedTunnel.Channel.Error
import SealedTunnel.Crypto.Aes
import SealedTunnel.Crypto.ChaCha
import SealedTunnel.Crypto.Kyber
import SealedTunnel.Crypto.P256
import SealedTunnel.Crypto.Sha2

/-!
# The cryptographic suite

The protocol is written against a `Suite` of primitives, so that its theorems
can name what they assume of them.

* `Suite` — randomness, hash, key derivation, authenticated encryption, key agreement and key
  encapsulation, over a type `ρ` of generator states.
* `Draw` — a computation that may draw random bytes and may fail. A failure keeps the bytes drawn
  so far used up. `Draw.beside` is the same with more in the state than the generator.
* `Suite.locked` — the generator is shared, and is lost once somebody fails while using it.
* `exactly` — a part of a fixed size.
* `Suite.standard` — ChaCha12, SHA-256, HKDF, AES-256-GCM, P-256 and Kyber768.
-/

namespace SealedTunnel

/-- The primitives of the protocol. -/
structure Suite (ρ : Type) where
  /-- the next `n` random bytes -/
  draw : (n : Nat) → ρ → Vector UInt8 n × ρ
  /-- whether somebody failed while using the generator -/
  poisoned : ρ → Bool
  /-- the transcript and certificate hash -/
  hash : Bytes → Bytes
  /-- so many bytes of key material from a secret -/
  derive : (secret : Bytes) → (length : Nat) → Bytes
  /-- ciphertext and tag of a plaintext that can be encrypted -/
  encrypt? : (key iv aad plain : Bytes) → Option Bytes
  /-- the plaintext of a ciphertext and tag that authenticate -/
  decrypt? : (key iv aad sealedText : Bytes) → Option Bytes
  /-- whether a byte string is usable as private key for key agreement -/
  validScalar : Bytes → Bool
  /-- the public point of a private key -/
  publicPoint : (scalar : Bytes) → Bytes
  /-- the point shared by a private key and a peer's public point -/
  agree? : (scalar point : Bytes) → Option Bytes
  /-- public and secret encapsulation key from random bytes -/
  kyberGenerate : (random : Bytes) → Bytes × Bytes
  /-- ciphertext and shared secret for a public key, from random bytes -/
  kyberEncapsulate : (publicKey random : Bytes) → Bytes × Bytes
  /-- the shared secret in a ciphertext -/
  kyberDecapsulate : (secretKey ciphertext : Bytes) → Bytes

/-- A computation that may draw random bytes and may fail. -/
abbrev Draw (ρ α : Type) : Type := ExceptT ChannelError (StateM ρ) α

/-- The same computation with something else beside the generator, which stays as it is. -/
def Draw.beside {ρ σ α : Type} (d : Draw ρ α) : Draw (σ × ρ) α := fun (s, g) =>
  let (result, g) := d.run g
  (result, s, g)

/-- A part of a message that has a fixed size. -/
def exactly (what : String) (size : Nat) (part : Bytes) : Except ChannelError (Vector UInt8 size) :=
  if h : part.length = size then .ok ⟨part.toArray, h⟩ else .error (.internal what)

namespace Suite

variable {ρ : Type} (S : Suite ρ)

/-- Use the generator, unless somebody failed while using it. -/
def locked {α : Type} (d : Draw ρ α) : Draw ρ α := do
  if S.poisoned (← get) then throw (.internal "rng lock poisoned")
  d

/-- The next `n` random bytes, for who uses the generator. -/
def bytes (n : Nat) : Draw ρ (Vector UInt8 n) := ExceptT.lift (S.draw n)

/-- The next `n` random bytes. -/
def random (n : Nat) : Draw ρ (Vector UInt8 n) := S.locked (S.bytes n)

/-- Draw 32 bytes until they are a usable private key, at most `attempts` times. -/
def scalar? : (attempts : Nat) → StateM ρ (Option Bytes)
  | 0 => pure none
  | attempts + 1 => do
    let bytes ← S.draw 32
    if S.validScalar bytes.toList then pure (some bytes.toList) else scalar? attempts

/-- A private key for key agreement. One draw in 2^32 is unusable, so a hundred are enough. -/
def scalar (failure : ChannelError) : Draw ρ Bytes := do
  match ← ExceptT.lift (S.scalar? 100) with
  | some bytes => pure bytes
  | none => throw failure

/-- Ciphertext and tag of a plaintext. -/
def encrypt (key iv aad plain : Bytes) : Except ChannelError Bytes :=
  match S.encrypt? key iv aad plain with
  | some sealedText => .ok sealedText
  | none => .error (.internal "aead encrypt")

/-- The primitives the protocol is run with. -/
def standard : Suite Generator where
  draw := Generator.draw
  poisoned := fun _ => false
  hash := Sha256.digest
  derive := Hkdf.derive
  encrypt? := fun key iv aad plain => some (Gcm.encrypt key iv aad plain)
  decrypt? := Gcm.decrypt?
  validScalar := P256.validScalar
  publicPoint := P256.publicKey
  agree? := P256.agree?
  kyberGenerate := Kyber.generate
  kyberEncapsulate := Kyber.encapsulate
  kyberDecapsulate := Kyber.decapsulate

end Suite

end SealedTunnel
