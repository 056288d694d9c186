import SealedTunnel.Der.Element
import SealedTunnel.Text.Decimal

/-!
# Object identifiers

* `Oid` — an object identifier in its encoded form, which is also what is compared.
* `Oid.ofPrimitive?` — the identifier in an element.
* `Oid.text` — its numbers with dots between them.
* `Oid.ofText?` — the identifier with these numbers.
-/

namespace SealedTunnel

namespace Der

/-- An object identifier, as it is encoded. -/
structure Oid where
  /-- the encoded numbers -/
  content : Bytes
  deriving DecidableEq, Repr

namespace Oid

/-- The content of an element as object identifier. -/
def ofElement (e : Element) : Oid := ⟨e.content⟩

/-- The content of an element that is not made of others as object identifier, whatever its tag. -/
def ofPrimitive? (e : Element) : Option Oid := if e.constructed then none else some (ofElement e)

/-- The numbers in a list of base-128 digits, where the last digit of a number is below 128. Numbers
are kept to 64 bits. -/
def numbers : (n : Nat) → (started : Bool) → Bytes → List Nat
  | n, started, [] => if started then [n] else []
  | n, _, b :: rest =>
    let next := (n * 128 + b.toNat % 128) % 2 ^ 64
    if b.toNat < 128 then next :: numbers 0 false rest else numbers next true rest

/-- The most digits of a number that is complete. -/
def widest : (digits : Nat) → Bytes → Nat
  | _, [] => 0
  | digits, b :: rest =>
    if b.toNat < 128 then max (digits + 1) (widest 0 rest) else widest (digits + 1) rest

/-- The digits that are sure to fit 64 bits. -/
def maxDigits : Nat := 9

/-- The numbers with dots between them. The first byte holds two of them. An identifier with larger
numbers is shown by its bytes. -/
def text (o : Oid) : String :=
  match o.content with
  | [] => ""
  | [0] => "0"
  | first :: rest =>
    if maxDigits < widest 0 rest then " ".intercalate (o.content.map fun b => Bytes.hex [b])
    else
      ".".intercalate
        ((first.toNat / 40 :: first.toNat % 40 :: numbers 0 false rest).map fun n => toString n)

/-- The base-128 digits of a number but the last, most significant first. -/
def leading : (room n : Nat) → Bytes
  | 0, _ => []
  | room + 1, n => if n = 0 then [] else leading room (n / 128) ++ [UInt8.ofNat (n % 128 + 128)]

/-- The base-128 digits of a number below 2^64. -/
def digits (n : Nat) : Bytes := leading maxDigits (n / 128) ++ [UInt8.ofNat (n % 128)]

/-- The identifier with these numbers. The first two share a byte. -/
def ofNumbers? : List Nat → Option Oid
  | [0] => some ⟨[0]⟩
  | a :: b :: rest =>
    if 7 ≤ a ∨ 40 ≤ b then none else some ⟨UInt8.ofNat (a * 40 + b) :: rest.flatMap digits⟩
  | _ => none

/-- The identifier whose numbers a text shows. -/
def ofText? (s : String) : Option Oid := do
  let parts := (s.splitOn ".").map fun part => (Text.readNatural (2 ^ 64) part).toOption
  ofNumbers? (← parts.mapM id)

end Oid

end Der

end SealedTunnel
