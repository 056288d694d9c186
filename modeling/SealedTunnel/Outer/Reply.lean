import SealedTunnel.Http.Head
import SealedTunnel.Outer.Message

/-!
# Reading replies

The response to an outer request in the bytes that a peer sends until it
closes the connection.

* `Framing` — how long the body of a response is; `Framing.ofResponse`.
* `readChunks` — a body that comes in chunks.
* `Outer.Response.read` — the response. Informational responses before it are skipped.
-/

namespace SealedTunnel

namespace Outer

open Http (Stop isGap)

/-! ## Framing -/

/-- How long a body is. -/
inductive Framing where
  /-- so many bytes -/
  | length (n : Nat)
  /-- in chunks, each with its own length -/
  | chunks
  /-- up to the end of the connection -/
  | untilClose
  deriving DecidableEq, Repr

/-- The parts of a header value between commas, without blanks around them. -/
def listed (value : Bytes) : List String :=
  ((Http.asciiText value).splitOn ",").map Text.trim

/-- Whether a header value is visible ASCII. -/
def isVisible (value : Bytes) : Bool := value.all fun b => b == 0x09 || (0x20 ≤ b && b ≤ 0x7e)

/-- Lengths stay below this bound. -/
def lengthBound : Nat := 2 ^ 64 - 1

/-- A length: decimal digits and nothing else. -/
def length? (text : String) : Option Nat :=
  if text = "" ∨ !text.all Char.isDigit then none
  else (Text.readNatural (2 ^ 64) text).toOption

/-- The length that all of the values agree on. -/
def agreedLength? (values : List Bytes) : Option Nat :=
  if !values.all isVisible then none
  else
    match (values.flatMap listed).mapM length? with
    | some (n :: rest) => if rest.all (· = n) && n < lengthBound then some n else none
    | _ => none

/-- Whether the last coding applied to a body is the one in chunks. -/
def isChunked (values : List Bytes) : Bool :=
  match values.getLast? with
  | none => false
  | some value =>
    isVisible value && (listed value).getLast?.any fun coding => Text.sameWord coding "chunked"

/-- The framing of the response to a request with this method; `isOld` for version 1.0. -/
def Framing.ofResponse (method : Http.Method) (isOld : Bool) (status : Nat) (headers : Headers) :
    Option Framing :=
  let codings := headers.values "transfer-encoding"
  let lengths := headers.values "content-length"
  if status = 101 ∨ status = 204 ∨ status = 304 ∨ method.name = "HEAD" then some (length 0)
  else if codings ≠ [] then
    if isOld then none else if isChunked codings then some chunks else some untilClose
  else if lengths ≠ [] then (agreedLength? lengths).map length
  else some untilClose

/-! ## Chunks -/

/-- The value of a hexadecimal digit. -/
def hexValue? (b : UInt8) : Option Nat :=
  if 0x30 ≤ b && b ≤ 0x39 then some (b.toNat - 0x30)
  else if 0x61 ≤ b && b ≤ 0x66 then some (b.toNat - 0x57)
  else if 0x41 ≤ b && b ≤ 0x46 then some (b.toNat - 0x37)
  else none

/-- The rest of a line that has to end with CR and LF, where `allowed` holds of what comes
before. -/
def afterLine (allowed : UInt8 → Bool) (input : Bytes) : Option (Remaining input) :=
  match h : input.dropWhile (fun b => b != 0x0d && allowed b) with
  | 0x0d :: 0x0a :: rest => some ⟨rest, by
      have := (List.dropWhile_suffix (l := input) fun b => b != 0x0d && allowed b).length_le
      rw [h] at this
      simp only [List.length_cons] at this
      omega⟩
  | _ => none

/-- What follows the size of a chunk up to the end of the line: blanks, and an extension behind a
semicolon. -/
def afterSize (input : Bytes) : Option (Remaining input) :=
  match h : input.dropWhile isGap with
  | 0x3b :: rest => do
    let ⟨rest', h'⟩ ← afterLine (· != 0x0a) rest
    return ⟨rest', by
      have := (List.dropWhile_suffix (l := input) isGap).length_le
      rw [h] at this
      simp only [List.length_cons] at this
      omega⟩
  | rest => do
    let ⟨rest', h'⟩ ← afterLine (fun _ => false) rest
    return ⟨rest', by
      have := (List.dropWhile_suffix (l := input) isGap).length_le
      rw [h] at this
      omega⟩

theorem Rest.dropWhile (first : UInt8) {more rest : Bytes} {p : UInt8 → Bool}
    (h : rest.length ≤ (more.dropWhile p).length) : rest.length < (first :: more).length :=
  Nat.lt_succ_of_le (Nat.le_trans h (List.dropWhile_suffix p).length_le)

/-- The size of the chunk at the start of an input, and what follows its line. -/
def chunkSize (input : Bytes) : Option (Nat × Rest input) :=
  match input with
  | [] => none
  | first :: more => do
    let start ← hexValue? first
    let digits := more.takeWhile fun b => (hexValue? b).isSome
    let size := digits.foldl (fun n b => n * 16 + (hexValue? b).getD 0) start
    let rest := more.dropWhile fun b => (hexValue? b).isSome
    if 2 ^ 64 ≤ size then none
    else do
      let ⟨rest', h⟩ ← afterSize rest
      return (size, ⟨rest', Rest.dropWhile first h⟩)

/-- The most headers in a head or behind the last chunk. -/
def maxHeaders : Nat := 100

/-- Whether headers and an empty line follow the last chunk. -/
def endsWell (input : Bytes) : Bool :=
  match Http.headers maxHeaders input with
  | .ok _ => true
  | .error _ => false

/-- The body in a sequence of chunks, of which the last is empty. -/
def readChunks (input : Bytes) : Option Bytes := do
  let (size, ⟨rest, _⟩) ← chunkSize input
  if size = 0 then if endsWell rest then return [] else none
  else if rest.length < size + 2 ∨ (rest.drop size).take 2 ≠ [0x0d, 0x0a] then none
  else return rest.take size ++ (← readChunks (rest.drop (size + 2)))
termination_by input.length
decreasing_by simp only [List.length_drop]; omega

/-! ## Responses -/

/-- The body in what follows a head. -/
def Framing.read : Framing → Bytes → Option Bytes
  | length n, input => if input.length < n then none else some (input.take n)
  | chunks, input => readChunks input
  | untilClose, input => some input

/-- Whether a status announces another response. 101 does not: it ends the exchange. -/
def isInformational (status : Nat) : Bool := 100 ≤ status && status ≤ 199 && status != 101

/-- The response to a request with this method, after at most `fuel` informational ones. -/
def Response.readAfter (method : Http.Method) : (fuel : Nat) → Bytes → Option Response
  | 0, _ => none
  | fuel + 1, input =>
    match Http.ResponseHead.read input with
    | .error _ => none
    | .ok (head, rest) =>
      if head.status < 100 ∨ maxHeaders < head.headers.length then none
      else if isInformational head.status then readAfter method fuel rest
      else do
        let headers := Headers.ofList (head.headers.map fun (n, v) => (Http.asciiText n, v))
        let framing ← Framing.ofResponse method head.isOld head.status headers
        return { status := head.status, headers, body := ← framing.read rest }

/-- The response to a request with this method. Each response takes up some of the input. -/
def Response.read (method : Http.Method) (input : Bytes) : Option Response :=
  readAfter method (input.length + 1) input

end Outer

end SealedTunnel
