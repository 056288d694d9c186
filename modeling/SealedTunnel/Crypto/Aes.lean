import SealedTunnel.Bytes

/-!
# AES-256 in Galois/counter mode

* `Aes.encryptBlock` — one block under an expanded 32-byte key.
* `Gcm.ghash` — the universal hash over GF(2^128).
* `Gcm.encrypt`, `Gcm.decrypt?` — authenticated encryption; the 16-byte tag follows the ciphertext.
-/

namespace SealedTunnel

namespace Aes

/-- The substitution box. -/
def sbox : Array UInt8 := #[
  0x63, 0x7c, 0x77, 0x7b, 0xf2, 0x6b, 0x6f, 0xc5, 0x30, 0x01, 0x67, 0x2b, 0xfe, 0xd7, 0xab, 0x76,
  0xca, 0x82, 0xc9, 0x7d, 0xfa, 0x59, 0x47, 0xf0, 0xad, 0xd4, 0xa2, 0xaf, 0x9c, 0xa4, 0x72, 0xc0,
  0xb7, 0xfd, 0x93, 0x26, 0x36, 0x3f, 0xf7, 0xcc, 0x34, 0xa5, 0xe5, 0xf1, 0x71, 0xd8, 0x31, 0x15,
  0x04, 0xc7, 0x23, 0xc3, 0x18, 0x96, 0x05, 0x9a, 0x07, 0x12, 0x80, 0xe2, 0xeb, 0x27, 0xb2, 0x75,
  0x09, 0x83, 0x2c, 0x1a, 0x1b, 0x6e, 0x5a, 0xa0, 0x52, 0x3b, 0xd6, 0xb3, 0x29, 0xe3, 0x2f, 0x84,
  0x53, 0xd1, 0x00, 0xed, 0x20, 0xfc, 0xb1, 0x5b, 0x6a, 0xcb, 0xbe, 0x39, 0x4a, 0x4c, 0x58, 0xcf,
  0xd0, 0xef, 0xaa, 0xfb, 0x43, 0x4d, 0x33, 0x85, 0x45, 0xf9, 0x02, 0x7f, 0x50, 0x3c, 0x9f, 0xa8,
  0x51, 0xa3, 0x40, 0x8f, 0x92, 0x9d, 0x38, 0xf5, 0xbc, 0xb6, 0xda, 0x21, 0x10, 0xff, 0xf3, 0xd2,
  0xcd, 0x0c, 0x13, 0xec, 0x5f, 0x97, 0x44, 0x17, 0xc4, 0xa7, 0x7e, 0x3d, 0x64, 0x5d, 0x19, 0x73,
  0x60, 0x81, 0x4f, 0xdc, 0x22, 0x2a, 0x90, 0x88, 0x46, 0xee, 0xb8, 0x14, 0xde, 0x5e, 0x0b, 0xdb,
  0xe0, 0x32, 0x3a, 0x0a, 0x49, 0x06, 0x24, 0x5c, 0xc2, 0xd3, 0xac, 0x62, 0x91, 0x95, 0xe4, 0x79,
  0xe7, 0xc8, 0x37, 0x6d, 0x8d, 0xd5, 0x4e, 0xa9, 0x6c, 0x56, 0xf4, 0xea, 0x65, 0x7a, 0xae, 0x08,
  0xba, 0x78, 0x25, 0x2e, 0x1c, 0xa6, 0xb4, 0xc6, 0xe8, 0xdd, 0x74, 0x1f, 0x4b, 0xbd, 0x8b, 0x8a,
  0x70, 0x3e, 0xb5, 0x66, 0x48, 0x03, 0xf6, 0x0e, 0x61, 0x35, 0x57, 0xb9, 0x86, 0xc1, 0x1d, 0x9e,
  0xe1, 0xf8, 0x98, 0x11, 0x69, 0xd9, 0x8e, 0x94, 0x9b, 0x1e, 0x87, 0xe9, 0xce, 0x55, 0x28, 0xdf,
  0x8c, 0xa1, 0x89, 0x0d, 0xbf, 0xe6, 0x42, 0x68, 0x41, 0x99, 0x2d, 0x0f, 0xb0, 0x54, 0xbb, 0x16]

/-- Substitute one byte. -/
def sub (x : UInt8) : UInt8 := sbox.getD x.toNat 0

/-- Multiply by the polynomial `x` in the field of 256 elements. -/
def double (x : UInt8) : UInt8 := if x < 0x80 then x <<< 1 else (x <<< 1) ^^^ 0x1b

/-- The constants of the key expansion. -/
def roundBytes : List UInt8 := [0x01, 0x02, 0x04, 0x08, 0x10, 0x20, 0x40]

/-- The next eight four-byte words of the key schedule, from the last eight. -/
def nextWords (constant : UInt8) (last : List Bytes) : List Bytes :=
  let final := last.getD 7 []
  let turned := match (final.drop 1 ++ final.take 1).map sub with
    | [] => []
    | x :: rest => (x ^^^ constant) :: rest
  let w0 := Bytes.xor (last.getD 0 []) turned
  let w1 := Bytes.xor (last.getD 1 []) w0
  let w2 := Bytes.xor (last.getD 2 []) w1
  let w3 := Bytes.xor (last.getD 3 []) w2
  let w4 := Bytes.xor (last.getD 4 []) (w3.map sub)
  let w5 := Bytes.xor (last.getD 5 []) w4
  let w6 := Bytes.xor (last.getD 6 []) w5
  let w7 := Bytes.xor (last.getD 7 []) w6
  [w0, w1, w2, w3, w4, w5, w6, w7]

/-- The words of the key schedule that follow `last`. -/
def expandFrom (last : List Bytes) : List UInt8 → List Bytes
  | [] => []
  | constant :: rest =>
    let next := nextWords constant last
    next ++ expandFrom next rest

/-- The fifteen round keys of a 32-byte key. -/
def roundKeys (key : Bytes) : List (Array UInt8) :=
  let first := (List.range 8).map fun i => (key.drop (4 * i)).take 4
  let words := first ++ expandFrom first roundBytes
  (List.range 15).map fun i => ((words.drop (4 * i)).take 4).flatten.toArray

/-- Add a round key. -/
def addKey (s k : Array UInt8) : Array UInt8 := s.zipWith (· ^^^ ·) k

/-- Substitute every byte and rotate row `r` of the state by `r` columns. -/
def subAndShift (s : Array UInt8) : Array UInt8 :=
  Array.ofFn fun i : Fin 16 => sub (s.getD ((i + 4 * (i % 4)) % 16) 0)

/-- Mix each column of the state. -/
def mixColumns (s : Array UInt8) : Array UInt8 :=
  Array.ofFn fun i : Fin 16 =>
    let column := i.val - i.val % 4
    let row := fun n : Nat => s.getD (column + (i.val + n) % 4) 0
    double (row 0) ^^^ (double (row 1) ^^^ row 1) ^^^ row 2 ^^^ row 3

/-- The rounds after the first key was added; the last one mixes no columns. -/
def rounds (s : Array UInt8) : List (Array UInt8) → Array UInt8
  | [] => s
  | [k] => addKey (subAndShift s) k
  | k :: rest => rounds (addKey (mixColumns (subAndShift s)) k) rest

/-- Encrypt one 16-byte block. -/
def encryptBlock (keys : List (Array UInt8)) (block : Bytes) : Bytes :=
  match keys with
  | [] => block
  | k :: rest => (rounds (addKey block.toArray k) rest).toList

end Aes

namespace Gcm

/-- Multiplication in GF(2^128), whose elements are written with the constant term first. -/
def mul (x y : BitVec 128) : BitVec 128 :=
  ((List.range 128).foldl (fun (acc : BitVec 128 × BitVec 128) i =>
    let sum := if x.getLsbD (127 - i) then acc.1 ^^^ acc.2 else acc.1
    let next := acc.2 >>> 1
    (sum, if acc.2.getLsbD 0 then next ^^^ (0xe1#128 <<< 120) else next)) (0#128, y)).1

/-- The field element of up to sixteen bytes, filled up with zeros on the right. -/
def element (b : Bytes) : BitVec 128 :=
  BitVec.ofNat 128 (Bytes.toNat (b ++ List.replicate (16 - b.length) 0))

/-- Absorb a byte string into the hash, block by block. -/
def absorb (h : BitVec 128) (acc : BitVec 128) (b : Bytes) : BitVec 128 :=
  if b = [] then acc else absorb h (mul (acc ^^^ element (b.take 16)) h) (b.drop 16)
termination_by b.length
decreasing_by
  rename_i hne
  have := List.length_pos_iff.mpr hne
  simp
  omega

/-- The hash of the associated data and the ciphertext, then of both bit lengths. -/
def ghash (h : BitVec 128) (aad ciphertext : Bytes) : BitVec 128 :=
  let acc := absorb h (absorb h 0 aad) ciphertext
  absorb h acc (Bytes.ofNat 8 (8 * aad.length) ++ Bytes.ofNat 8 (8 * ciphertext.length))

/-- Exclusive or with the key stream whose next counter value is `counter`. -/
def stream (keys : List (Array UInt8)) (iv : Bytes) (counter : Nat) (b : Bytes) : Bytes :=
  if b = [] then []
  else
    Bytes.xor (b.take 16) (Aes.encryptBlock keys (iv ++ Bytes.ofNat 4 counter)) ++
      stream keys iv (counter + 1) (b.drop 16)
termination_by b.length
decreasing_by
  rename_i hne
  have := List.length_pos_iff.mpr hne
  simp
  omega

/-- The authentication tag of a ciphertext and its associated data. -/
def tag (keys : List (Array UInt8)) (iv aad ciphertext : Bytes) : Bytes :=
  let h := element (Aes.encryptBlock keys (List.replicate 16 0))
  Bytes.xor (Bytes.ofNat 16 (ghash h aad ciphertext).toNat)
    (Aes.encryptBlock keys (iv ++ Bytes.ofNat 4 1))

/-- The ciphertext followed by its tag. -/
def encrypt (key iv aad plain : Bytes) : Bytes :=
  let keys := Aes.roundKeys key
  let ciphertext := stream keys iv 2 plain
  ciphertext ++ tag keys iv aad ciphertext

/-- The plaintext, if the 16 bytes at the end are the tag of the rest. -/
def decrypt? (key iv aad sealedText : Bytes) : Option Bytes :=
  let keys := Aes.roundKeys key
  let size := sealedText.length - 16
  let ciphertext := sealedText.take size
  if sealedText.length < 16 ∨ tag keys iv aad ciphertext ≠ sealedText.drop size then none
  else some (stream keys iv 2 ciphertext)

end Gcm

end SealedTunnel
