import SealedTunnel.Bytes

/-!
# SHA-256, HMAC and key derivation

* `Sha256.digest` — the hash, over a padded message cut into 64-byte blocks.
* `Hmac.mac` — the keyed hash.
* `Hkdf.derive` — extract and expand, with a zero salt and empty info.
-/

namespace SealedTunnel

namespace Sha256

/-- Fractional parts of the cube roots of the first 64 primes. -/
def roundConstants : Array UInt32 := #[
  0x428a2f98, 0x71374491, 0xb5c0fbcf, 0xe9b5dba5, 0x3956c25b, 0x59f111f1, 0x923f82a4, 0xab1c5ed5,
  0xd807aa98, 0x12835b01, 0x243185be, 0x550c7dc3, 0x72be5d74, 0x80deb1fe, 0x9bdc06a7, 0xc19bf174,
  0xe49b69c1, 0xefbe4786, 0x0fc19dc6, 0x240ca1cc, 0x2de92c6f, 0x4a7484aa, 0x5cb0a9dc, 0x76f988da,
  0x983e5152, 0xa831c66d, 0xb00327c8, 0xbf597fc7, 0xc6e00bf3, 0xd5a79147, 0x06ca6351, 0x14292967,
  0x27b70a85, 0x2e1b2138, 0x4d2c6dfc, 0x53380d13, 0x650a7354, 0x766a0abb, 0x81c2c92e, 0x92722c85,
  0xa2bfe8a1, 0xa81a664b, 0xc24b8b70, 0xc76c51a3, 0xd192e819, 0xd6990624, 0xf40e3585, 0x106aa070,
  0x19a4c116, 0x1e376c08, 0x2748774c, 0x34b0bcb5, 0x391c0cb3, 0x4ed8aa4a, 0x5b9cca4f, 0x682e6ff3,
  0x748f82ee, 0x78a5636f, 0x84c87814, 0x8cc70208, 0x90befffa, 0xa4506ceb, 0xbef9a3f7, 0xc67178f2]

/-- The eight words of the chaining value. -/
structure Chain where
  /-- first word -/
  a : UInt32
  /-- second word -/
  b : UInt32
  /-- third word -/
  c : UInt32
  /-- fourth word -/
  d : UInt32
  /-- fifth word -/
  e : UInt32
  /-- sixth word -/
  f : UInt32
  /-- seventh word -/
  g : UInt32
  /-- eighth word -/
  h : UInt32

/-- Fractional parts of the square roots of the first eight primes. -/
def start : Chain :=
  ⟨0x6a09e667, 0xbb67ae85, 0x3c6ef372, 0xa54ff53a, 0x510e527f, 0x9b05688c, 0x1f83d9ab, 0x5be0cd19⟩

/-- Rotate a word to the right. -/
def rotr (x n : UInt32) : UInt32 := (x >>> n) ||| (x <<< (32 - n))

/-- The big-endian words of a byte string, whole words only. -/
def words : Bytes → List UInt32
  | w :: x :: y :: z :: rest =>
    (w.toUInt32 <<< 24 ||| x.toUInt32 <<< 16 ||| y.toUInt32 <<< 8 ||| z.toUInt32) :: words rest
  | _ => []

/-- The message schedule: sixteen words of the block stretched to sixty-four. -/
def schedule (block : List UInt32) : Array UInt32 :=
  (List.range 48).foldl (fun w i =>
    let x := w.getD (i + 1) 0
    let y := w.getD (i + 14) 0
    let s0 := rotr x 7 ^^^ rotr x 18 ^^^ (x >>> 3)
    let s1 := rotr y 17 ^^^ rotr y 19 ^^^ (y >>> 10)
    w.push (w.getD i 0 + s0 + w.getD (i + 9) 0 + s1)) block.toArray

/-- One round with its schedule word and constant. -/
def round (s : Chain) (w k : UInt32) : Chain :=
  let s1 := rotr s.e 6 ^^^ rotr s.e 11 ^^^ rotr s.e 25
  let choice := (s.e &&& s.f) ^^^ ((~~~s.e) &&& s.g)
  let t1 := s.h + s1 + choice + k + w
  let s0 := rotr s.a 2 ^^^ rotr s.a 13 ^^^ rotr s.a 22
  let majority := (s.a &&& s.b) ^^^ (s.a &&& s.c) ^^^ (s.b &&& s.c)
  ⟨t1 + (s0 + majority), s.a, s.b, s.c, s.d + t1, s.e, s.f, s.g⟩

/-- Absorb one block of sixteen words. -/
def compress (s : Chain) (block : List UInt32) : Chain :=
  let w := schedule block
  let t := (List.range 64).foldl
    (fun t i => round t (w.getD i 0) (roundConstants.getD i 0)) s
  ⟨s.a + t.a, s.b + t.b, s.c + t.c, s.d + t.d, s.e + t.e, s.f + t.f, s.g + t.g, s.h + t.h⟩

/-- Absorb every whole block of a word list. -/
def absorb (s : Chain) (ws : List UInt32) : Chain :=
  if ws.length < 16 then s else absorb (compress s (ws.take 16)) (ws.drop 16)
termination_by ws.length
decreasing_by simp; omega

/-- A one bit, zeros up to eight bytes short of a block, and the bit length. -/
def padding (length : Nat) : Bytes :=
  0x80 :: List.replicate ((119 - length % 64) % 64) 0 ++ Bytes.ofNat 8 (8 * length)

/-- The 32-byte hash of a byte string. -/
def digest (message : Bytes) : Bytes :=
  let s := absorb start (words (message ++ padding message.length))
  [s.a, s.b, s.c, s.d, s.e, s.f, s.g, s.h].flatMap fun w => Bytes.ofNat 4 w.toNat

theorem length_digest (message : Bytes) : (digest message).length = 32 := by
  simp [digest]

end Sha256

namespace Hmac

/-- A key filled up with zeros to one block; a longer key is hashed first. -/
def blockKey (key : Bytes) : Bytes :=
  let key := if key.length > 64 then Sha256.digest key else key
  key ++ List.replicate (64 - key.length) 0

/-- The keyed hash of a message. -/
def mac (key message : Bytes) : Bytes :=
  let key := blockKey key
  Sha256.digest (key.map (· ^^^ 0x5c) ++ Sha256.digest (key.map (· ^^^ 0x36) ++ message))

end Hmac

namespace Hkdf

/-- The first `count` blocks of the expansion that follow the block `previous`. -/
def blocks (key : Bytes) : (count : Nat) → (number : Nat) → (previous : Bytes) → Bytes
  | 0, _, _ => []
  | count + 1, number, previous =>
    let block := Hmac.mac key (previous ++ [UInt8.ofNat number])
    block ++ blocks key count (number + 1) block

/-- `length` bytes derived from a secret, with a salt of 32 zeros and no info. -/
def derive (secret : Bytes) (length : Nat) : Bytes :=
  (blocks (Hmac.mac (List.replicate 32 0) secret) ((length + 31) / 32) 1 []).take length

end Hkdf

end SealedTunnel
