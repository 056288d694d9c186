import SealedTunnel.Bytes

/-!
# The Keccak sponge

* `Keccak.permute` — the 24-round permutation of 25 lanes.
* `Keccak.sponge` — absorb a padded message, then squeeze.
* `sha3_256`, `sha3_512`, `shake128`, `shake256` — the four uses of it.
-/

namespace SealedTunnel

namespace Keccak

/-- The lanes of the state; lane `(x, y)` is at index `x + 5 y`. -/
abbrev State : Type := Array UInt64

/-- The constants that break the symmetry between rounds. -/
def roundConstants : List UInt64 := [
  0x0000000000000001, 0x0000000000008082, 0x800000000000808a, 0x8000000080008000,
  0x000000000000808b, 0x0000000080000001, 0x8000000080008081, 0x8000000000008009,
  0x000000000000008a, 0x0000000000000088, 0x0000000080008009, 0x000000008000000a,
  0x000000008000808b, 0x800000000000008b, 0x8000000000008089, 0x8000000000008003,
  0x8000000000008002, 0x8000000000000080, 0x000000000000800a, 0x800000008000000a,
  0x8000000080008081, 0x8000000000008080, 0x0000000080000001, 0x8000000080008008]

/-- How far lane `x + 5 y` is rotated. -/
def offsets : Array UInt64 := #[
  0, 1, 62, 28, 27, 36, 44, 6, 55, 20, 3, 10, 43, 25, 39, 41, 45, 15, 21, 8, 18, 2, 61, 56, 14]

/-- Rotate a lane to the left. -/
def rotl (x n : UInt64) : UInt64 := if n == 0 then x else (x <<< n) ||| (x >>> (64 - n))

/-- One round: parity, rotation, permutation of the lanes, the nonlinear step, the constant. -/
def round (s : State) (constant : UInt64) : State :=
  let parity := Array.ofFn fun x : Fin 5 =>
    s.getD x 0 ^^^ s.getD (x + 5) 0 ^^^ s.getD (x + 10) 0 ^^^ s.getD (x + 15) 0 ^^^
      s.getD (x + 20) 0
  let mixed := Array.ofFn fun i : Fin 25 =>
    s.getD i 0 ^^^ parity.getD ((i + 4) % 5) 0 ^^^ rotl (parity.getD ((i + 1) % 5) 0) 1
  let moved := Array.ofFn fun i : Fin 25 =>
    let x := i.val % 5
    let y := i.val / 5
    let source := (x + 3 * y) % 5 + 5 * x
    rotl (mixed.getD source 0) (offsets.getD source 0)
  let chi := Array.ofFn fun i : Fin 25 =>
    let x := i.val % 5
    let row := i.val - x
    moved.getD i 0 ^^^
      ((~~~(moved.getD (row + (x + 1) % 5) 0)) &&& moved.getD (row + (x + 2) % 5) 0)
  chi.modify 0 (· ^^^ constant)

/-- All twenty-four rounds. -/
def permute (s : State) : State := roundConstants.foldl round s

/-- The lane of eight bytes, least significant first; missing bytes are zero. -/
def lane (b : Bytes) : UInt64 :=
  (b.take 8).foldr (fun x n => (n <<< 8) ||| x.toUInt64) 0

/-- The lanes of a byte string. -/
def lanes (b : Bytes) : List UInt64 :=
  (List.range ((b.length + 7) / 8)).map fun i => lane (b.drop (8 * i))

/-- The eight bytes of a lane, least significant first. -/
def laneBytes (x : UInt64) : Bytes :=
  (List.range 8).map fun i => (x >>> (8 * UInt64.ofNat i)).toUInt8

/-- Absorb a padded message, `rate` bytes at a time. -/
def absorb (rate : Nat) (s : State) (b : Bytes) : State :=
  if b.length < rate ∨ rate = 0 then s
  else
    let block := lanes (b.take rate)
    let s := (List.range block.length).foldl
      (fun s i => s.modify i (· ^^^ block.getD i 0)) s
    absorb rate (permute s) (b.drop rate)
termination_by b.length
decreasing_by simp; omega

/-- `count` blocks of output. -/
def squeeze (rate : Nat) (s : State) : (count : Nat) → Bytes
  | 0 => []
  | count + 1 => (s.toList.flatMap laneBytes).take rate ++ squeeze rate (permute s) count

/-- The domain byte and zeros up to a whole block, whose last bit is set. -/
def padding (rate : Nat) (domain : UInt8) (length : Nat) : Bytes :=
  match rate - length % rate with
  | 1 => [domain ||| 0x80]
  | gap => domain :: List.replicate (gap - 2) 0 ++ [0x80]

/-- `length` bytes of the sponge over a message. -/
def sponge (rate : Nat) (domain : UInt8) (message : Bytes) (length : Nat) : Bytes :=
  let s := absorb rate (Array.replicate 25 0) (message ++ padding rate domain message.length)
  (squeeze rate s ((length + rate - 1) / rate)).take length

end Keccak

/-- SHA3-256. -/
def sha3_256 (message : Bytes) : Bytes := Keccak.sponge 136 0x06 message 32

/-- SHA3-512. -/
def sha3_512 (message : Bytes) : Bytes := Keccak.sponge 72 0x06 message 64

/-- SHAKE128 with `length` bytes of output. -/
def shake128 (message : Bytes) (length : Nat) : Bytes := Keccak.sponge 168 0x1f message length

/-- SHAKE256 with `length` bytes of output. -/
def shake256 (message : Bytes) (length : Nat) : Bytes := Keccak.sponge 136 0x1f message length

end SealedTunnel
