import SealedTunnel.Cbor.Head

/-!
# Reading CBOR values

A `Reader` takes one value from the front of its input and leaves less of it,
so that reading any number of values ends. Its first argument bounds how much
deeper arrays, maps and tags may nest.

* `Reader.skip` — any well-formed value.
* `Reader.natural`, `Reader.boolean`, `Reader.bytes`, `Reader.text`, `Reader.listOf`,
  `Reader.optional` — values of one kind. Tags in front of a value are ignored.
* `decode` — a value that is the whole input.
-/

namespace SealedTunnel

namespace Cbor

/-- A reader of one value, given how many more levels of nesting are allowed. -/
def Reader (α : Type) : Type :=
  (depth : Nat) → (input : Bytes) → Except Fault (α × Rest input)

/-! ## Repetition -/

/-- How many items follow. -/
inductive Count where
  /-- a known number -/
  | exactly (n : Nat)
  /-- up to a break -/
  | untilStop
  deriving DecidableEq, Repr

namespace Count

/-- The count after one item. -/
def pred : Count → Count
  | exactly n => exactly (n - 1)
  | untilStop => untilStop

/-- The rest of the input if no item follows: none is left of a known number, or a break comes
next, which is taken. An input that ends before a break is refused. -/
def finished? : Count → (input : Bytes) → Except Fault (Option (Remaining input))
  | exactly 0, input => .ok (some ⟨input, Remaining.refl input⟩)
  | exactly (_ + 1), _ => .ok none
  | untilStop, [] => .error .malformed
  | untilStop, x :: rest => if x = 0xff then .ok (some ⟨rest, Remaining.tail x rest⟩) else .ok none

/-- Read items one after the other, carrying a state along. -/
def fold {σ : Type} (count : Count) (step : σ → (input : Bytes) → Except Fault (σ × Rest input))
    (s : σ) (input : Bytes) : Except Fault (σ × Remaining input) :=
  match count.finished? input with
  | .error fault => .error fault
  | .ok (some rest) => .ok (s, rest)
  | .ok none =>
    match step s input with
    | .error fault => .error fault
    | .ok (s', ⟨rest, h⟩) =>
      match fold count.pred step s' rest with
      | .error fault => .error fault
      | .ok (s'', ⟨rest', h'⟩) => .ok (s'', ⟨rest', Nat.le_trans h' (Nat.le_of_lt h)⟩)
termination_by input.length

end Count

namespace Reader

variable {α β : Type}

/-- Apply a function to the value read. -/
def map (f : α → β) (r : Reader α) : Reader β := fun depth input => do
  let (a, rest) ← r depth input
  return (f a, rest)

/-- Read a value, then another one that may depend on it. -/
def andThen (r : Reader α) (f : α → Reader β) : Reader β := fun depth input => do
  let (a, ⟨rest, h⟩) ← r depth input
  let (b, ⟨rest', h'⟩) ← f a depth rest
  return (b, ⟨rest', Rest.trans h' h⟩)

/-! ## Heads behind tags -/

/-- The head of a value behind its tags, and the levels of nesting left. Each tag takes a level. -/
def head : (depth : Nat) → (input : Bytes) → Except Fault ((Head × Nat) × Rest input)
  | 0, input => do
    let (head, rest) ← Head.read input
    match head with
    | .tag _ => .error .malformed
    | head => return ((head, 0), rest)
  | depth + 1, input => do
    let (head, ⟨rest, h⟩) ← Head.read input
    match head with
    | .tag _ =>
      let (result, ⟨rest', h'⟩) ← Reader.head depth rest
      return (result, ⟨rest', Rest.trans h' h⟩)
    | head => return ((head, depth + 1), ⟨rest, h⟩)

/-- Read a head, then the rest of the value, which the head decides. -/
def behind {input : Bytes} (rest : Rest input)
    (body : (input : Bytes) → Except Fault (α × Remaining input)) :
    Except Fault (α × Rest input) := do
  let (a, ⟨rest', h'⟩) ← body rest.val
  return (a, ⟨rest', Nat.lt_of_le_of_lt h' rest.property⟩)

/-! ## Strings -/

/-- The chunks of a string of unknown length, joined. Every chunk has the string's own type. -/
def chunks (texts : Bool) (input : Bytes) : Except Fault (Bytes × Remaining input) :=
  Count.untilStop.fold (fun joined input => do
    let (head, rest) ← Head.read input
    match head, texts with
    | .bytes n, false | .text n, true =>
      behind rest fun input => do
        let (chunk, rest) ← Head.take? n input
        return (joined ++ chunk, rest)
    | _, _ => .error .malformed) [] input

/-- The text of a byte string that is UTF-8. -/
def utf8 (b : Bytes) : Except Fault String :=
  match Bytes.toString? b with
  | some s => .ok s
  | none => .error .malformed

/-! ## Anything -/

/-- Skip a value; `inner` skips what is nested in it, and is `none` at the last level. -/
def skipWith (inner : Option ((input : Bytes) → Except Fault (Unit × Rest input)))
    (input : Bytes) : Except Fault (Unit × Rest input) := do
  let (head, rest) ← Head.read input
  let nested := fun (count : Count) (each : Nat) =>
    match inner with
    | none => .error .malformed
    | some inner =>
      behind rest (count.fold (fun _ input => do
        let ((), ⟨rest, h⟩) ← inner input
        if each = 1 then return ((), ⟨rest, h⟩)
        else
          let ((), ⟨rest', h'⟩) ← inner rest
          return ((), ⟨rest', Rest.trans h' h⟩)) ())
  match head with
  | .unsigned _ | .negative _ | .flag _ | .null | .undefined | .float => return ((), rest)
  | .bytes n =>
    behind rest fun input => do
      let (_, rest) ← Head.take? n input
      return ((), rest)
  | .byteChunks =>
    behind rest fun input => do
      let (_, rest) ← chunks false input
      return ((), rest)
  | .text n =>
    behind rest fun input => do
      let (b, rest) ← Head.take? n input
      let _ ← utf8 b
      return ((), rest)
  | .textChunks =>
    behind rest fun input => do
      let (b, rest) ← chunks true input
      let _ ← utf8 b
      return ((), rest)
  | .array n => nested (.exactly n) 1
  | .elements => nested .untilStop 1
  | .map n => nested (.exactly n) 2
  | .entries => nested .untilStop 2
  | .tag _ => nested (.exactly 1) 1
  | .stop => .error .malformed

/-- Any well-formed value. -/
def skip : Reader Unit
  | 0 => skipWith none
  | depth + 1 => skipWith (some (skip depth))

/-! ## Values of one kind -/

/-- A natural number below a bound. -/
def natural (bound : Nat) : Reader Nat := fun depth input => do
  let ((head, _), rest) ← Reader.head depth input
  match head with
  | .unsigned n => if n < bound then return (n, rest) else .error .malformed
  | _ => .error .malformed

/-- An unsigned 64-bit number. -/
def uint64 : Reader UInt64 := (natural (2 ^ 64)).map UInt64.ofNat

/-- A truth value. -/
def boolean : Reader Bool := fun depth input => do
  let ((head, _), rest) ← Reader.head depth input
  match head with
  | .flag value => return (value, rest)
  | _ => .error .malformed

/-- The elements of an array that goes on with `count` of them. -/
def items (r : Reader α) (depth : Nat) (count : Count) (input : Bytes) :
    Except Fault (List α × Remaining input) := do
  let (reversed, rest) ← count.fold (fun reversed input => do
    let (a, rest) ← r depth input
    return (a :: reversed, rest)) [] input
  return (reversed.reverse, rest)

/-- An array of values of one kind. -/
def listOf (r : Reader α) : Reader (List α) := fun depth input => do
  let ((head, depth), rest) ← Reader.head depth input
  match head, depth with
  | .array n, depth + 1 => behind rest (items r depth (.exactly n))
  | .elements, depth + 1 => behind rest (items r depth .untilStop)
  | _, _ => .error .malformed

/-- A byte string; a text counts as its UTF-8 form, and an array of small numbers as their bytes. -/
def bytes : Reader Bytes := fun depth input => do
  let ((head, depth), rest) ← Reader.head depth input
  let ofText := fun (input : Bytes) (result : Bytes × Remaining input) => do
    let _ ← utf8 result.1
    return result
  let ofItems := fun (input : Bytes) (result : List Nat × Remaining input) =>
    (result.1.map UInt8.ofNat, result.2)
  match head, depth with
  | .bytes n, _ => behind rest (Head.take? n)
  | .byteChunks, _ => behind rest (chunks false)
  | .text n, _ => behind rest fun input => Head.take? n input >>= ofText input
  | .textChunks, _ => behind rest fun input => chunks true input >>= ofText input
  | .array n, depth + 1 =>
    behind rest fun input => ofItems input <$> items (natural 256) depth (.exactly n) input
  | .elements, depth + 1 =>
    behind rest fun input => ofItems input <$> items (natural 256) depth .untilStop input
  | _, _ => .error .malformed

/-- A text; a byte string that is UTF-8 counts as its text. -/
def text : Reader String := fun depth input => do
  let ((head, _), rest) ← Reader.head depth input
  let asText := fun (input : Bytes) (result : Bytes × Remaining input) => do
    let s ← utf8 result.1
    return (s, result.2)
  match head with
  | .bytes n | .text n => behind rest fun input => Head.take? n input >>= asText input
  | .byteChunks => behind rest fun input => chunks false input >>= asText input
  | .textChunks => behind rest fun input => chunks true input >>= asText input
  | _ => .error .malformed

/-- A value or null. A tag in front of null is not allowed. -/
def optional (r : Reader α) : Reader (Option α) := fun depth input =>
  match input with
  | x :: rest =>
    if x = 0xf6 then .ok (none, ⟨rest, Rest.tail x rest⟩) else r.map some depth (x :: rest)
  | [] => .error .malformed

end Reader

/-- The number of levels that arrays, maps and tags may nest. -/
def maxDepth : Nat := 127

/-- The value that is encoded in the whole of a byte string. -/
def decode {α : Type} (r : Reader α) (b : Bytes) : Except Fault α := do
  let (a, rest) ← r maxDepth b
  if rest.val = [] then return a else .error .malformed

end Cbor

end SealedTunnel
