import SealedTunnel.Bytes

/-!
# The curve P-256

Points of `y² = x³ - 3x + b` over the prime field, added in Jacobian
coordinates so that one inversion at the end is enough.

* `P256.Point` — an affine point or the point at infinity.
* `P256.multiply` — scalar multiplication.
* `P256.publicKey`, `P256.agree?` — the two uses in key agreement.
-/

namespace SealedTunnel

namespace P256

/-- The prime of the field. -/
def p : Nat := 0xffffffff00000001000000000000000000000000ffffffffffffffffffffffff

/-- The order of the base point. -/
def order : Nat := 0xffffffff00000000ffffffffffffffffbce6faada7179e84f3b9cac2fc632551

/-- The constant term of the curve equation. -/
def b : Nat := 0x5ac635d8aa3a93e7b3ebbd55769886bc651d06b0cc53b0f63bce3c3e27d2604b

/-- The base point's coordinates. -/
def base : Nat × Nat :=
  (0x6b17d1f2e12c4247f8bce6e563a440f277037d812deb33a0f4a13945d898c296,
    0x4fe342e2fe1a7f9b8ee7eb4a7c0f9e162bce33576b315ececbb6406837bf51f5)

/-- Difference in the field. -/
def sub (x y : Nat) : Nat := (x + (p - y % p)) % p

/-- Product in the field. -/
def mul (x y : Nat) : Nat := x * y % p

/-- The bits of a number, least significant first, `width` of them. -/
def bits (width n : Nat) : List Bool := (List.range width).map n.testBit

/-- Powers in the field, for exponents below 2^256. -/
def pow (x e : Nat) : Nat :=
  (bits 256 e).reverse.foldl (fun acc bit => let sq := mul acc acc; if bit then mul sq x else sq) 1

/-- The inverse of a nonzero element, by Fermat's little theorem. -/
def inverse (x : Nat) : Nat := pow x (p - 2)

/-- A point in Jacobian coordinates: `(x / z², y / z³)`, at infinity when `z = 0`. -/
structure Jacobian where
  /-- `x` scaled by `z²` -/
  x : Nat
  /-- `y` scaled by `z³` -/
  y : Nat
  /-- the scale -/
  z : Nat

namespace Jacobian

/-- The point at infinity. -/
def infinity : Jacobian := ⟨1, 1, 0⟩

/-- Twice a point. -/
def double (q : Jacobian) : Jacobian :=
  if q.z = 0 ∨ q.y = 0 then infinity
  else
    let delta := mul q.z q.z
    let gamma := mul q.y q.y
    let beta := mul q.x gamma
    let alpha := mul 3 (mul (sub q.x delta) ((q.x + delta) % p))
    let x := sub (mul alpha alpha) (mul 8 beta)
    let sum := (q.y + q.z) % p
    let z := sub (sub (mul sum sum) gamma) delta
    let y := sub (mul alpha (sub (mul 4 beta) x)) (mul 8 (mul gamma gamma))
    ⟨x, y, z⟩

/-- The sum of a point and an affine point. -/
def addAffine (q : Jacobian) (r : Nat × Nat) : Jacobian :=
  if q.z = 0 then ⟨r.1, r.2, 1⟩
  else
    let zz := mul q.z q.z
    let u := mul r.1 zz
    let s := mul r.2 (mul zz q.z)
    let h := sub u q.x
    let d := sub s q.y
    if h = 0 then
      if d = 0 then double q else infinity
    else
      let hh := mul h h
      let hhh := mul hh h
      let v := mul q.x hh
      let x := sub (sub (mul d d) hhh) (mul 2 v)
      let y := sub (mul d (sub v x)) (mul q.y hhh)
      ⟨x, y, mul q.z h⟩

/-- The affine coordinates, unless the point is at infinity. -/
def affine? (q : Jacobian) : Option (Nat × Nat) :=
  if q.z = 0 then none
  else
    let zi := inverse q.z
    let zz := mul zi zi
    some (mul q.x zz, mul q.y (mul zz zi))

end Jacobian

/-- A multiple of an affine point. -/
def multiply (k : Nat) (r : Nat × Nat) : Jacobian :=
  (bits 256 k).reverse.foldl
    (fun acc bit => let twice := acc.double; if bit then twice.addAffine r else twice)
    Jacobian.infinity

/-- Whether the coordinates are field elements on the curve. -/
def onCurve (r : Nat × Nat) : Bool :=
  r.1 < p && r.2 < p && mul r.2 r.2 == (sub (mul (mul r.1 r.1) r.1) (mul 3 r.1) + b) % p

/-- The 64 bytes `x ‖ y` of a point. -/
def encode (r : Nat × Nat) : Bytes := Bytes.ofNat 32 r.1 ++ Bytes.ofNat 32 r.2

/-- The coordinates in `x ‖ y`. -/
def decode (point : Bytes) : Nat × Nat :=
  (Bytes.toNat (point.take 32), Bytes.toNat (point.drop 32))

/-- Whether a byte string is a usable private key: a number from 1 to the order less one. -/
def validScalar (scalar : Bytes) : Bool :=
  let k := Bytes.toNat scalar
  0 < k && k < order

/-- The public key `x ‖ y` of a private key. -/
def publicKey (scalar : Bytes) : Bytes :=
  match (multiply (Bytes.toNat scalar) base).affine? with
  | some r => encode r
  | none => encode (0, 0)

/-- The point shared by a private key and a peer's public key, which has to be on the curve. -/
def agree? (scalar point : Bytes) : Option Bytes :=
  let r := decode point
  if onCurve r then (multiply (Bytes.toNat scalar) r).affine?.map encode else none

end P256

end SealedTunnel
