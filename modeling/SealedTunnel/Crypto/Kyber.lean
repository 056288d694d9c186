import SealedTunnel.Crypto.Keccak

/-!
# Kyber768

Key encapsulation over a module lattice, in its round-three form.

* `Kyber.Poly` — a polynomial of 256 coefficients modulo 3329, and its number-theoretic transform.
* `Kyber.pack` / `Kyber.unpack` — coefficients as strings of `d`-bit numbers.
* `Kyber.generate`, `Kyber.encapsulate`, `Kyber.decapsulate` — the key encapsulation mechanism.
  A ciphertext that does not re-encrypt to itself yields a secret of its own instead of an error.
-/

namespace SealedTunnel

namespace Kyber

/-- The modulus of the coefficients. -/
def q : Nat := 3329

/-- A polynomial: 256 coefficients below `q`, constant term first. -/
abbrev Poly : Type := Array Nat

/-- A vector of three polynomials. -/
abbrev Vec : Type := List Poly

/-! ## Arithmetic -/

/-- Sum of two polynomials. -/
def add (f g : Poly) : Poly := f.zipWith (fun x y => (x + y) % q) g

/-- Difference of two polynomials. -/
def sub (f g : Poly) : Poly := f.zipWith (fun x y => (x + (q - y)) % q) g

/-- The zero polynomial. -/
def zero : Poly := Array.replicate 256 0

/-- The low seven bits of a number in reverse order. -/
def reverse7 (n : Nat) : Nat :=
  (List.range 7).foldl (fun acc i => acc * 2 + n / 2 ^ i % 2) 0

/-- Powers of the 256th root of unity 17, by exponent. -/
def roots : Array Nat :=
  ((List.range 256).foldl (fun (acc : Array Nat × Nat) _ =>
    (acc.1.push acc.2, acc.2 * 17 % q)) (#[], 1)).1

/-- The root that the butterfly number `k` multiplies by. -/
def twiddle : Array Nat := Array.ofFn fun k : Fin 128 => roots.getD (reverse7 k) 0

/-- The root that pair `i` of a transformed polynomial is reduced by. -/
def pairRoot : Array Nat := Array.ofFn fun i : Fin 128 => roots.getD (2 * reverse7 i + 1) 0

/-- One layer of the transform, on blocks of `2 * len` coefficients. -/
def forwardLayer (f : Poly) (len : Nat) : Poly :=
  Array.ofFn fun i : Fin 256 =>
    let z := twiddle.getD (128 / len + i.val / (2 * len)) 0
    if i.val % (2 * len) < len then (f.getD i 0 + z * f.getD (i + len) 0) % q
    else (f.getD (i - len) 0 + (q - z * f.getD i 0 % q)) % q

/-- One layer of the inverse transform, on blocks of `2 * len` coefficients. -/
def inverseLayer (f : Poly) (len : Nat) : Poly :=
  Array.ofFn fun i : Fin 256 =>
    let z := twiddle.getD (2 * (128 / len) - 1 - i.val / (2 * len)) 0
    if i.val % (2 * len) < len then (f.getD i 0 + f.getD (i + len) 0) % q
    else z * ((f.getD i 0 + (q - f.getD (i - len) 0)) % q) % q

/-- The number-theoretic transform. -/
def transform (f : Poly) : Poly := [128, 64, 32, 16, 8, 4, 2].foldl forwardLayer f

/-- Its inverse; 3303 is the inverse of 128. -/
def untransform (f : Poly) : Poly :=
  ([2, 4, 8, 16, 32, 64, 128].foldl inverseLayer f).map fun x => x * 3303 % q

/-- Product of two transformed polynomials, pair by pair. -/
def mul (f g : Poly) : Poly :=
  Array.ofFn fun i : Fin 256 =>
    let k := i.val - i.val % 2
    let a0 := f.getD k 0
    let a1 := f.getD (k + 1) 0
    let b0 := g.getD k 0
    let b1 := g.getD (k + 1) 0
    if i.val % 2 = 0 then (a0 * b0 + a1 * b1 % q * pairRoot.getD (k / 2) 0) % q
    else (a0 * b1 + a1 * b0) % q

/-- Inner product of two transformed vectors. -/
def dot (f g : Vec) : Poly := (f.zipWith mul g).foldl add zero

/-! ## Bit strings -/

/-- The low `d` bits of a number, least significant first. -/
def bits (d n : Nat) : List Bool := (List.range d).map n.testBit

/-- The number with these bits. -/
def ofBits (bs : List Bool) : Nat := bs.foldr (fun bit n => n * 2 + bit.toNat) 0

/-- Cut a list into pieces of `d` elements; what is left over is dropped. -/
def pieces {α : Type} (d : Nat) (xs : List α) : List (List α) :=
  (List.range (xs.length / d)).foldr
    (fun _ k rest => rest.take d :: k (rest.drop d)) (fun _ => []) xs

/-- Numbers of `d` bits each, as bytes. -/
def pack (d : Nat) (f : Poly) : Bytes :=
  (pieces 8 (f.toList.flatMap (bits d))).map fun byte => UInt8.ofNat (ofBits byte)

/-- The numbers of `d` bits each in a byte string. -/
def unpack (d : Nat) (b : Bytes) : Poly :=
  ((pieces d (b.flatMap fun x => bits 8 x.toNat)).map ofBits).toArray

/-- Round coefficients to `d` bits. -/
def compress (d : Nat) (f : Poly) : Poly := f.map fun x => (x * 2 ^ d + q / 2) / q % 2 ^ d

/-- The coefficients that `d`-bit numbers stand for. -/
def decompress (d : Nat) (f : Poly) : Poly := f.map fun y => (y * q + 2 ^ (d - 1)) / 2 ^ d

/-- Three polynomials of `d`-bit numbers. -/
def unpackVec (d : Nat) (b : Bytes) : Vec :=
  (List.range 3).map fun i => unpack d ((b.drop (32 * d * i)).take (32 * d))

/-! ## Sampling -/

/-- The coefficients below `q` among the 12-bit numbers of a byte string. -/
def candidates : Bytes → List Nat
  | x :: y :: z :: rest =>
    let d1 := x.toNat + 256 * (y.toNat % 16)
    let d2 := y.toNat / 16 + 16 * z.toNat
    (if d1 < q then [d1] else []) ++ (if d2 < q then [d2] else []) ++ candidates rest
  | _ => []

/-- A transformed polynomial from a seed and its place in the matrix. Of 672 candidates 256 are
needed; four in five are below `q`. -/
def uniform (seed : Bytes) (i j : Nat) : Poly :=
  let found := candidates (shake128 (seed ++ [UInt8.ofNat i, UInt8.ofNat j]) 1008)
  (found.take 256 ++ List.replicate (256 - found.length) 0).toArray

/-- A polynomial of small coefficients: differences of two pairs of random bits. -/
def noise (seed : Bytes) (nonce : Nat) : Poly :=
  let bytes := shake256 (seed ++ [UInt8.ofNat nonce]) 128
  ((pieces 4 (bytes.flatMap fun x => bits 8 x.toNat)).map fun
    | [a, b, c, d] => (a.toNat + b.toNat + (q - c.toNat - d.toNat)) % q
    | _ => 0).toArray

/-- A vector of noise from three consecutive nonces. -/
def noiseVec (seed : Bytes) (nonce : Nat) : Vec :=
  (List.range 3).map fun i => noise seed (nonce + i)

/-- The rows of the public matrix. -/
def rows (seed : Bytes) : List Vec :=
  (List.range 3).map fun i => (List.range 3).map fun j => uniform seed j i

/-- The columns of the public matrix. -/
def columns (seed : Bytes) : List Vec :=
  (List.range 3).map fun i => (List.range 3).map fun j => uniform seed i j

/-! ## Encryption -/

/-- The public and the secret part of a key pair from 32 random bytes. -/
def generatePair (d : Bytes) : Bytes × Bytes :=
  let expanded := sha3_512 d
  let rho := expanded.take 32
  let sigma := expanded.drop 32
  let s := (noiseVec sigma 0).map transform
  let e := (noiseVec sigma 3).map transform
  let t := (rows rho).zipWith (fun row e => add (dot row s) e) e
  (t.flatMap (pack 12) ++ rho, s.flatMap (pack 12))

/-- Encrypt 32 bytes under a public key with explicit randomness. -/
def encrypt (publicKey message coins : Bytes) : Bytes :=
  let t := (unpackVec 12 publicKey).map (·.map (· % q))
  let rho := publicKey.drop 1152
  let r := (noiseVec coins 0).map transform
  let u := (columns rho).zipWith (fun column e => add (untransform (dot column r)) e)
    (noiseVec coins 3)
  let v := add (add (untransform (dot t r)) (noise coins 6)) (decompress 1 (unpack 1 message))
  u.flatMap (fun f => pack 10 (compress 10 f)) ++ pack 4 (compress 4 v)

/-- Decrypt a ciphertext. -/
def decrypt (secret ciphertext : Bytes) : Bytes :=
  let u := (unpackVec 10 ciphertext).map fun f => transform (decompress 10 f)
  let v := decompress 4 (unpack 4 (ciphertext.drop 960))
  pack 1 (compress 1 (sub v (untransform (dot (unpackVec 12 secret) u))))

/-! ## Encapsulation -/

/-- A public key of 1184 bytes and a secret key of 2400 from 64 random bytes. The secret key also
holds the public key, its hash, and the seed of the secrets given for bad ciphertexts. -/
def generate (random : Bytes) : Bytes × Bytes :=
  let (publicKey, secret) := generatePair (random.take 32)
  (publicKey, secret ++ publicKey ++ sha3_256 publicKey ++ random.drop 32)

/-- The shared secret of a key and the ciphertext that carried it. -/
def sharedSecret (key ciphertext : Bytes) : Bytes := shake256 (key ++ sha3_256 ciphertext) 32

/-- A ciphertext of 1088 bytes and the 32-byte secret in it, from 32 random bytes. -/
def encapsulate (publicKey random : Bytes) : Bytes × Bytes :=
  let message := sha3_256 random
  let expanded := sha3_512 (message ++ sha3_256 publicKey)
  let ciphertext := encrypt publicKey message (expanded.drop 32)
  (ciphertext, sharedSecret (expanded.take 32) ciphertext)

/-- The secret in a ciphertext. -/
def decapsulate (secretKey ciphertext : Bytes) : Bytes :=
  let publicKey := (secretKey.drop 1152).take 1184
  let hash := (secretKey.drop 2336).take 32
  let message := decrypt (secretKey.take 1152) ciphertext
  let expanded := sha3_512 (message ++ hash)
  if encrypt publicKey message (expanded.drop 32) = ciphertext then
    sharedSecret (expanded.take 32) ciphertext
  else
    sharedSecret (shake256 (secretKey.drop 2368 ++ ciphertext) 32) ciphertext

end Kyber

end SealedTunnel
