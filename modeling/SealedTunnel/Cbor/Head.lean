import SealedTunnel.Bytes

/-!
# CBOR heads

Every CBOR data item starts with a head: a major type and an argument.

* `Fault` — why an encoding is refused.
* `Head` — the heads there are; `Head.read` reads one and `Head.write` writes the shortest form of
  one with an argument.
-/

namespace SealedTunnel

namespace Cbor

/-- Why an encoding is refused. -/
inductive Fault where
  /-- a record lacks a field -/
  | missingField (name : String)
  /-- a record has a field twice -/
  | duplicateField (name : String)
  /-- anything else -/
  | malformed
  deriving DecidableEq, Repr

/-- The text shown for a fault. -/
def Fault.message : Fault → String
  | missingField name => s!"missing field `{name}`"
  | duplicateField name => s!"duplicate field `{name}`"
  | malformed => "*"

/-- The start of a data item. -/
inductive Head where
  /-- a natural number -/
  | unsigned (n : Nat)
  /-- the number `-1 - n` -/
  | negative (n : Nat)
  /-- a byte string of known length -/
  | bytes (length : Nat)
  /-- byte string chunks up to a break -/
  | byteChunks
  /-- a text of known length in bytes -/
  | text (length : Nat)
  /-- text chunks up to a break -/
  | textChunks
  /-- an array of known length -/
  | array (length : Nat)
  /-- array elements up to a break -/
  | elements
  /-- a map with a known number of entries -/
  | map (length : Nat)
  /-- map entries up to a break -/
  | entries
  /-- a tag in front of another item -/
  | tag (n : Nat)
  /-- a truth value -/
  | flag (value : Bool)
  /-- the null value -/
  | null
  /-- the undefined value -/
  | undefined
  /-- a floating-point number, whose value is of no use here -/
  | float
  /-- the end of an item of unknown length -/
  | stop
  deriving DecidableEq, Repr

namespace Head

/-- The first `n` bytes of an input and the rest. -/
def take? (n : Nat) (input : Bytes) : Except Fault (Bytes × Remaining input) :=
  if n ≤ input.length then .ok (input.take n, ⟨input.drop n, by simp⟩) else .error .malformed

/-- The argument of a head with these five low bits: small ones stand for themselves, others give
the size of the argument that follows. -/
def argument (low : Nat) (input : Bytes) : Except Fault (Nat × Remaining input) :=
  if low < 24 then .ok (low, ⟨input, Remaining.refl input⟩)
  else if low < 28 then do
    let (b, rest) ← take? (2 ^ (low - 24)) input
    return (Bytes.toNat b, rest)
  else .error .malformed

/-- The head of a simple value with these five low bits, and how many bytes of payload follow it. -/
def simple? : (low : Nat) → Option (Head × Nat)
  | 20 => some (flag false, 0)
  | 21 => some (flag true, 0)
  | 22 => some (null, 0)
  | 23 => some (undefined, 0)
  | 25 => some (float, 2)
  | 26 => some (float, 4)
  | 27 => some (float, 8)
  | 31 => some (stop, 0)
  | _ => none

/-- The head of a major type with an argument; the major types are those below seven. -/
def sized (major n : Nat) : Head :=
  match major with
  | 0 => unsigned n
  | 1 => negative n
  | 2 => bytes n
  | 3 => text n
  | 4 => array n
  | 5 => map n
  | _ => tag n

/-- The head of a major type whose items may have unknown length. -/
def unsized? : (major : Nat) → Option Head
  | 2 => some byteChunks
  | 3 => some textChunks
  | 4 => some elements
  | 5 => some entries
  | _ => none

/-- Read a head, with the payload of a floating-point number. -/
def read : (input : Bytes) → Except Fault (Head × Rest input)
  | [] => .error .malformed
  | first :: input =>
    let major := first.toNat / 32
    let low := first.toNat % 32
    if major = 7 then
      match simple? low with
      | none => .error .malformed
      | some (head, size) => do
        let (_, ⟨rest, h⟩) ← take? size input
        return (head, ⟨rest, Nat.lt_succ_of_le h⟩)
    else if low = 31 then
      match unsized? major with
      | none => .error .malformed
      | some head => .ok (head, ⟨input, Rest.tail first input⟩)
    else do
      let (n, ⟨rest, h⟩) ← argument low input
      return (sized major n, ⟨rest, Nat.lt_succ_of_le h⟩)

/-- The shortest head of a major type with an argument. -/
def write (major n : Nat) : Bytes :=
  let first := fun low : Nat => UInt8.ofNat (major * 32 + low)
  if n < 24 then [first n]
  else if n < 2 ^ 8 then first 24 :: Bytes.ofNat 1 n
  else if n < 2 ^ 16 then first 25 :: Bytes.ofNat 2 n
  else if n < 2 ^ 32 then first 26 :: Bytes.ofNat 4 n
  else first 27 :: Bytes.ofNat 8 n

end Head

end Cbor

end SealedTunnel
