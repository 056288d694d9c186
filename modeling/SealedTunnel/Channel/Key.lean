import SealedTunnel.Suite

/-!
# Keys

* `Environment` — production or testing, told apart on the wire.
* `CurvePoint` — a public key for key agreement, as it travels.
* `KeyPair` — one party's keys for both mechanisms, and `KeyPair.generate`.
* `kyberSpki`, `kyberOfSpki` — a Kyber768 public key inside its `SubjectPublicKeyInfo`.
-/

namespace SealedTunnel

/-- Where a channel is used. -/
inductive Environment where
  /-- real data -/
  | production
  /-- test data -/
  | testing
  deriving DecidableEq, Repr

/-- The byte that stands for an environment in a frame. -/
def Environment.byte : Environment → UInt8
  | .production => 1
  | .testing => 0

/-- A public key for key agreement: a curve and two coordinates, not yet checked. -/
structure CurvePoint where
  /-- the curve's name -/
  curve : String
  /-- the first coordinate -/
  x : Bytes
  /-- the second coordinate -/
  y : Bytes
  deriving DecidableEq, Repr

namespace CurvePoint

/-- The point whose coordinates are the first 32 bytes and the rest. -/
def ofBytes (b : Bytes) : CurvePoint := ⟨"P-256", b.take 32, b.drop 32⟩

/-- The 64 bytes `x ‖ y`, after a check of the curve and of both lengths. -/
def encode (point : CurvePoint) : Except ChannelError Bytes :=
  if point.curve ≠ "P-256" then
    .error (.malformedKey s!"ECDH curve must be P-256, got '{point.curve}'")
  else if point.x.length ≠ 32 then
    .error (.malformedKey s!"ECDH x coordinate must be 32 bytes, got {point.x.length}")
  else if point.y.length ≠ 32 then
    .error (.malformedKey s!"ECDH y coordinate must be 32 bytes, got {point.y.length}")
  else .ok (point.x ++ point.y)

end CurvePoint

/-- The size of a Kyber768 public key. -/
def kyberKeySize : Nat := 1184

/-- The size of a Kyber768 ciphertext. -/
def kyberCiphertextSize : Nat := 1088

/-- A Kyber768 public key has the right size; nothing else is checked. -/
def checkKyberKey (key : Bytes) : Except ChannelError Unit :=
  if key.length = kyberKeySize then .ok ()
  else .error (.malformedKey s!"Kyber768 public key must be {kyberKeySize} bytes, got {key.length}")

/-- What comes before the key in the `SubjectPublicKeyInfo` of a Kyber768 key. -/
def spkiHeader : Bytes := [
  0x30, 0x82, 0x04, 0xb4, 0x30, 0x0d, 0x06, 0x0b, 0x2b, 0x06, 0x01, 0x04, 0x01, 0x81, 0xb0, 0x1a,
  0x05, 0x06, 0x02, 0x03, 0x82, 0x04, 0xa1, 0x00]

/-- Wrap a Kyber768 public key into its `SubjectPublicKeyInfo`. -/
def kyberSpki (key : Bytes) : Except ChannelError Bytes := do
  checkKyberKey key
  return spkiHeader ++ key

/-- The Kyber768 public key in a `SubjectPublicKeyInfo`. -/
def kyberOfSpki (spki : Bytes) : Except ChannelError Bytes := do
  if ¬ spkiHeader <+: spki then throw (.malformedKey "unexpected Kyber768 SPKI header")
  let key := spki.drop spkiHeader.length
  checkKyberKey key
  return key

/-- One party's keys for both mechanisms. -/
structure KeyPair where
  /-- private key for key agreement -/
  scalar : Bytes
  /-- its public point, 64 bytes -/
  point : Bytes
  /-- secret encapsulation key -/
  kyberSecret : Bytes
  /-- its public key -/
  kyberPublic : Bytes
  deriving DecidableEq, Repr

/-- Fresh keys: first the one for key agreement, then 64 bytes for the other. -/
def KeyPair.generate {ρ : Type} (S : Suite ρ) : Draw ρ KeyPair := S.locked do
  let scalar ← S.scalar (.internal "ecdh key generation")
  let random ← S.bytes 64
  let (kyberPublic, kyberSecret) := S.kyberGenerate random.toList
  return { scalar, point := S.publicPoint scalar, kyberSecret, kyberPublic }

end SealedTunnel
