import SealedTunnel.Bytes

/-!
# DER elements

* `Head` — a tag and a length; `Head.read`. Lengths are definite; they need not be in their shortest
  form.
* `Element` — a tag, its content, and all of the bytes it was read from.
* `Element.read` — the element at the start of an input.
* `Element.list` — an input as elements one after the other.
* `expect`, `optionalPart` — an element that has to come next, and one that may be left out.
-/

namespace SealedTunnel

namespace Der

/-- The class of a tag. -/
inductive Class where
  /-- types of the standard -/
  | universal
  /-- types of an application -/
  | application
  /-- meaning given by the surrounding type -/
  | context
  /-- private agreement -/
  | reserved
  deriving DecidableEq, Repr

/-- The class in the two high bits of an identifier. -/
def Class.ofByte (b : UInt8) : Class :=
  match b.toNat / 64 with
  | 0 => universal
  | 1 => application
  | 2 => context
  | _ => reserved

/-- What stands before the content of an element. -/
structure Head where
  /-- the class of the tag -/
  tagClass : Class
  /-- whether the content is made of elements -/
  constructed : Bool
  /-- the number of the tag -/
  tag : Nat
  /-- the length of the content -/
  size : Nat
  deriving DecidableEq, Repr

/-- One element of an encoding. -/
structure Element where
  /-- the class of the tag -/
  tagClass : Class
  /-- whether the content is made of elements -/
  constructed : Bool
  /-- the number of the tag -/
  tag : Nat
  /-- the content -/
  content : Bytes
  /-- the whole element, content included -/
  raw : Bytes
  deriving DecidableEq, Repr

/-! ## Tag numbers in use -/

namespace Tag

/-- A truth value. -/
def boolean : Nat := 1

/-- A whole number. -/
def integer : Nat := 2

/-- A string of bits. -/
def bitString : Nat := 3

/-- A string of bytes. -/
def octetString : Nat := 4

/-- An object identifier. -/
def oid : Nat := 6

/-- A named number. -/
def enumerated : Nat := 10

/-- Elements in order. -/
def sequence : Nat := 16

/-- Elements without order. -/
def set : Nat := 17

/-- A time with a year of two digits. -/
def utcTime : Nat := 23

/-- A time with a year of four digits. -/
def generalizedTime : Nat := 24

end Tag

/-! ## Reading -/

/-- Whether an identifier says that the content is made of elements. -/
def isConstructed (identifier : UInt8) : Bool := identifier.toNat / 32 % 2 == 1

/-- Tag numbers are kept to this many values. -/
def tagBound : Nat := 2 ^ 32

/-- The rest of a tag number that takes bytes of its own, at most `room` of them. -/
def longTag : (room tag : Nat) → (input : Bytes) → Option (Nat × Rest input)
  | 0, _, _ | _, _, [] => none
  | room + 1, tag, b :: rest =>
    let tag := (tag * 128 + b.toNat % 128) % tagBound
    if b.toNat < 128 then some (tag, ⟨rest, Rest.tail b rest⟩)
    else do
      let (tag, ⟨rest', h⟩) ← longTag room tag rest
      return (tag, ⟨rest', Nat.lt_succ_of_lt h⟩)

/-- A tag number whose low bits are in the identifier. -/
def tagNumber (identifier : UInt8) (input : Bytes) : Option (Nat × Remaining input) :=
  let low := identifier.toNat % 32
  if low < 31 then some (low, ⟨input, Remaining.refl input⟩)
  else do
    let (tag, ⟨rest, h⟩) ← longTag 5 0 input
    return (tag, ⟨rest, Nat.le_of_lt h⟩)

/-- A length: one byte, or the number of bytes that hold it. -/
def length : (input : Bytes) → Option (Nat × Rest input)
  | [] => none
  | b :: rest =>
    if b.toNat < 128 then some (b.toNat, ⟨rest, Rest.tail b rest⟩)
    else
      let size := b.toNat - 128
      let n := Bytes.toNat (rest.take size)
      if size = 0 ∨ size = 127 ∨ rest.length < size ∨ 2 ^ 64 ≤ n then none
      else some (n, ⟨rest.drop size, Rest.drop b rest size⟩)

/-- The head at the start of an input, and what follows it. -/
def Head.read : (input : Bytes) → Option (Head × Rest input)
  | [] => none
  | identifier :: input => do
    let (tag, ⟨afterTag, h⟩) ← tagNumber identifier input
    let (size, ⟨body, h'⟩) ← Der.length afterTag
    return ({
      tagClass := Class.ofByte identifier, constructed := isConstructed identifier, tag, size },
      ⟨body, Rest.behind identifier h h'⟩)

/-- The element at the start of an input, and what follows it. -/
def Element.read (input : Bytes) : Option (Element × Rest input) := do
  let (head, ⟨body, h⟩) ← Head.read input
  if body.length < head.size then none
  else
    let rest := body.drop head.size
    return ({
      tagClass := head.tagClass, constructed := head.constructed, tag := head.tag
      content := body.take head.size
      raw := input.take (input.length - rest.length) },
      ⟨rest, by simp only [rest, List.length_drop]; omega⟩)

/-- The elements that make up an input. -/
def Element.list (input : Bytes) : Option (List Element) :=
  if input = [] then some []
  else do
    let (first, ⟨rest, _⟩) ← Element.read input
    let more ← Element.list rest
    return first :: more
termination_by input.length

/-- The element at the start of an input if its tag has a given number, and what follows it. -/
def expect (tag : Nat) (input : Bytes) : Option (Element × Bytes) := do
  let (e, rest) ← Element.read input
  if e.tag = tag then some (e, rest.val) else none

/-- An element that may be left out, told by the number of its tag, and what follows it. Of an
element with another tag only the head has to be sound. -/
def optionalPart (tag : Nat) (input : Bytes) : Option (Option Element × Bytes) :=
  if input = [] then some (none, [])
  else do
    if (← Head.read input).1.tag ≠ tag then return (none, input)
    let (e, rest) ← Element.read input
    return (some e, rest.val)

/-- Whether an element has a tag with this number in the class whose meaning is given by the
surrounding type. -/
def Element.isContext (e : Element) (tag : Nat) : Bool := e.tagClass == .context && e.tag == tag

end Der

end SealedTunnel
