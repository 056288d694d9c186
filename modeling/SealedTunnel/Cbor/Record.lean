import SealedTunnel.Cbor.Reader

/-!
# CBOR records

A record is a map from field names to values.

* `Fields` — the fields of a record type, in order.
* `Fields.read` — a record written as a map, whose keys are names or field numbers, or as the bare
  array of its values. Unknown keys are skipped with their values.
* `writeRecord` and the other writers — the one form in which values are written.
-/

namespace SealedTunnel

namespace Cbor

/-! ## Field lists -/

/-- The fields of a record, in order. -/
inductive Fields : List Type → Type 1 where
  /-- no more fields -/
  | nil : Fields []
  /-- a field: its name, its value in a map without it, its value in an array that ends before it,
  and how its value is read -/
  | cons {α : Type} {αs : List Type} (name : String) (absent beyond : Option α) (read : Reader α)
      (rest : Fields αs) : Fields (α :: αs)

/-- One value for each field. -/
@[reducible] def Values : List Type → Type
  | [] => Unit
  | α :: αs => α × Values αs

/-- The values found so far. -/
@[reducible] def Slots : List Type → Type
  | [] => Unit
  | α :: αs => Option α × Slots αs

namespace Fields

variable {αs : List Type}

/-- No value found yet. -/
def empty : {αs : List Type} → Fields αs → Slots αs
  | _, nil => ()
  | _, cons _ _ _ _ rest => (none, rest.empty)

/-- The place of the field with this name, or the number of fields. -/
def indexOf : {αs : List Type} → Fields αs → Bytes → Nat
  | _, nil, _ => 0
  | _, cons name _ _ _ rest, key => if Bytes.ofString name = key then 0 else rest.indexOf key + 1

/-- Read the value of the field at an index. A field that has a value already is refused, and a
value that belongs to no field is skipped. -/
def put : {αs : List Type} → Fields αs → Nat → Slots αs → Reader (Slots αs)
  | _, nil, _, () => Reader.skip
  | _, cons name _ _ read _, 0, (found, slots) =>
    match found with
    | some _ => fun _ _ => .error (.duplicateField name)
    | none => read.map fun a => (some a, slots)
  | _, cons _ _ _ _ rest, i + 1, (found, slots) =>
    (rest.put i slots).map fun slots => (found, slots)

/-- The values of all fields, if each one was found or may be absent. -/
def close : {αs : List Type} → Fields αs → Slots αs → Except Fault (Values αs)
  | _, nil, () => .ok ()
  | _, cons name absent _ _ rest, (found, slots) =>
    match found, absent with
    | some a, _ | none, some a => do
      let values ← rest.close slots
      return (a, values)
    | none, none => .error (.missingField name)

/-! ## Reading -/

/-- The index that a map key stands for. -/
def key (fields : Fields αs) : Reader Nat := fun depth input => do
  let ((head, _), rest) ← Reader.head depth input
  let named := fun (input : Bytes) (result : Bytes × Remaining input) =>
    (fields.indexOf result.1, result.2)
  let namedText := fun (input : Bytes) (result : Bytes × Remaining input) => do
    let _ ← Reader.utf8 result.1
    return named input result
  match head with
  | .unsigned n => return (n, rest)
  | .bytes n => Reader.behind rest fun input => named input <$> Head.take? n input
  | .byteChunks => Reader.behind rest fun input => named input <$> Reader.chunks false input
  | .text n => Reader.behind rest fun input => Head.take? n input >>= namedText input
  | .textChunks => Reader.behind rest fun input => Reader.chunks true input >>= namedText input
  | _ => .error .malformed

/-- The entries of a map that goes on with `count` of them. -/
def readEntries (fields : Fields αs) (depth : Nat) (count : Count) (input : Bytes) :
    Except Fault (Values αs × Remaining input) := do
  let (slots, rest) ← count.fold (fun slots => (fields.key.andThen (fields.put · slots)) depth)
    fields.empty input
  let values ← fields.close slots
  return (values, rest)

/-- The elements of an array that goes on with `count` of them, one for each field. -/
def readElements : {αs : List Type} → Fields αs → (depth : Nat) → Count → (input : Bytes) →
    Except Fault (Values αs × Remaining input)
  | _, nil, _, count, input => do
    match ← count.finished? input with
    | some rest => return ((), rest)
    | none => .error .malformed
  | _, cons _ _ beyond read rest, depth, count, input => do
    match ← count.finished? input, beyond with
    | some _, some a =>
      let (values, remaining) ← rest.readElements depth count input
      return ((a, values), remaining)
    | some _, none => .error .malformed
    | none, _ =>
      let (a, ⟨input', h⟩) ← read depth input
      let (values, ⟨input'', h'⟩) ← rest.readElements depth count.pred input'
      return ((a, values), ⟨input'', Nat.le_trans h' (Nat.le_of_lt h)⟩)

/-- A record with these fields. -/
def read (fields : Fields αs) : Reader (Values αs) := fun depth input => do
  let ((head, depth), rest) ← Reader.head depth input
  match head, depth with
  | .map n, depth + 1 => Reader.behind rest (fields.readEntries depth (.exactly n))
  | .entries, depth + 1 => Reader.behind rest (fields.readEntries depth .untilStop)
  | .array n, depth + 1 => Reader.behind rest (fields.readElements depth (.exactly n))
  | .elements, depth + 1 => Reader.behind rest (fields.readElements depth .untilStop)
  | _, _ => .error .malformed

end Fields

/-! ## Writing -/

/-- A natural number below 2^64. -/
def writeNatural (n : Nat) : Bytes := Head.write 0 n

/-- A byte string. -/
def writeBytes (b : Bytes) : Bytes := Head.write 2 b.length ++ b

/-- A text. -/
def writeText (s : String) : Bytes :=
  let b := Bytes.ofString s
  Head.write 3 b.length ++ b

/-- A truth value. -/
def writeBoolean : Bool → Bytes
  | false => [0xf4]
  | true => [0xf5]

/-- A record: a map of its fields in order, from names to values that are written already. -/
def writeRecord (fields : List (String × Bytes)) : Bytes :=
  Head.write 5 fields.length ++ fields.flatMap fun (name, value) => writeText name ++ value

end Cbor

end SealedTunnel
