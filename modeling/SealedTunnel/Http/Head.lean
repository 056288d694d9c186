import SealedTunnel.Bytes

/-!
# Heads of HTTP/1 messages

The part of a message up to the empty line, read from bytes.

* `HeadFault`, `Stop` — why no head could be read; an input that merely ends too early is told
  apart from one that is wrong.
* `RequestHead`, `ResponseHead` — what a head says.
* `RequestHead.read`, `ResponseHead.read` — a head and the bytes behind it.

Lines end with LF or with CR and LF. Values keep their bytes: what they mean is for others.
-/

namespace SealedTunnel

namespace Http

/-- What is wrong with a head. -/
inductive HeadFault where
  /-- the method or the target -/
  | token
  /-- the protocol version -/
  | version
  /-- the status code, the reason, or what is between them -/
  | status
  /-- the end of a line -/
  | newLine
  /-- the name of a header -/
  | headerName
  /-- the value of a header -/
  | headerValue
  /-- the number of headers -/
  | tooManyHeaders
  deriving DecidableEq, Repr

/-- The text shown for a fault. -/
def HeadFault.message : HeadFault → String
  | token => "invalid token"
  | version => "invalid HTTP version"
  | status => "invalid response status"
  | newLine => "invalid new line"
  | headerName => "invalid header name"
  | headerValue => "invalid header value"
  | tooManyHeaders => "too many headers"

/-- Why no head could be read. -/
inductive Stop where
  /-- the input ends before the head does -/
  | incomplete
  /-- no continuation of the input has a head -/
  | invalid (fault : HeadFault)
  deriving DecidableEq, Repr

/-! ## Bytes of a head -/

/-- A byte of a token: an ASCII letter, a digit or one of a few marks. -/
def isToken (b : UInt8) : Bool :=
  (0x30 ≤ b && b ≤ 0x39) || (0x41 ≤ b && b ≤ 0x5a) || (0x61 ≤ b && b ≤ 0x7a) ||
    (Bytes.ofString "!#$%&'*+-.^_`|~").contains b

/-- A byte of a request target: anything but blanks and control characters. -/
def isTarget (b : UInt8) : Bool := (0x21 ≤ b && b ≤ 0x7e) || 0x80 ≤ b

/-- A byte of a header value or a reason: anything but control characters other than tab. -/
def isValue (b : UInt8) : Bool := b == 0x09 || (0x20 ≤ b && b ≤ 0x7e) || 0x80 ≤ b

/-- A space or a tab. -/
def isGap (b : UInt8) : Bool := b == 0x20 || b == 0x09

/-! ## Lines -/

/-- What follows the end of a line, which has to come next. -/
def lineEnd (fault : HeadFault) : Bytes → Except Stop Bytes
  | [] | [0x0d] => .error .incomplete
  | 0x0d :: 0x0a :: rest => .ok rest
  | 0x0a :: rest => .ok rest
  | _ => .error (.invalid fault)

/-- What follows the empty lines in front of a head. -/
def skipEmptyLines : Bytes → Except Stop Bytes
  | [] | [0x0d] => .error .incomplete
  | 0x0d :: 0x0a :: rest => skipEmptyLines rest
  | 0x0d :: _ => .error (.invalid .newLine)
  | 0x0a :: rest => skipEmptyLines rest
  | input => .ok input

/-- What follows a space, which has to come next. -/
def space (fault : HeadFault) : Bytes → Except Stop Bytes
  | [] => .error .incomplete
  | 0x20 :: rest => .ok rest
  | _ => .error (.invalid fault)

/-- What follows the protocol version, which is 1.0 or 1.1. -/
def version (input : Bytes) : Except Stop Bytes :=
  if input.length < 8 then
    if input <+: Bytes.ofString "HTTP/1." then .error .incomplete else .error (.invalid .version)
  else if input.take 8 = Bytes.ofString "HTTP/1.0" ∨ input.take 8 = Bytes.ofString "HTTP/1.1" then
    .ok (input.drop 8)
  else .error (.invalid .version)

/-! ## Headers -/

/-- The most headers a head may have. -/
def maxHeaders : Nat := 128

/-- A header as it was read: its name, and its value without blanks around it. -/
abbrev RawHeader : Type := Bytes × Bytes

/-- One header line. -/
def header (input : Bytes) : Except Stop (RawHeader × Bytes) :=
  let name := input.takeWhile isToken
  match input.dropWhile isToken with
  | [] => .error .incomplete
  | 0x3a :: rest =>
    if name = [] then .error (.invalid .headerName)
    else do
      let rest := rest.dropWhile isGap
      let value := rest.takeWhile isValue
      let rest ← lineEnd .headerValue (rest.dropWhile isValue)
      return ((name, (value.reverse.dropWhile isGap).reverse), rest)
  | _ => .error (.invalid .headerName)

/-- The headers up to the empty line, if there is room for them. -/
def headers : (room : Nat) → (input : Bytes) → Except Stop (List RawHeader × Bytes)
  | room, input =>
    match input with
    | [] => .error .incomplete
    | 0x0d :: _ | 0x0a :: _ => do
      let rest ← lineEnd .newLine input
      return ([], rest)
    | _ => do
      let (first, rest) ← header input
      match room with
      | 0 => .error (.invalid .tooManyHeaders)
      | room + 1 =>
        let (more, rest) ← headers room rest
        return (first :: more, rest)

/-! ## Requests -/

/-- The head of a request. -/
structure RequestHead where
  /-- the method, a token -/
  method : Bytes
  /-- the target, in the form it came -/
  target : String
  /-- the headers in order -/
  headers : List RawHeader
  deriving DecidableEq, Repr

/-- The head of a request and what follows it. -/
def RequestHead.read (input : Bytes) : Except Stop (RequestHead × Bytes) := do
  let input ← skipEmptyLines input
  let method := input.takeWhile isToken
  if method = [] then throw (.invalid .token)
  let input ← space .token (input.dropWhile isToken)
  let target := input.takeWhile isTarget
  let input ← space .token (input.dropWhile isTarget)
  if target = [] then throw (.invalid .token)
  match Bytes.toString? target with
  | none => throw (.invalid .token)
  | some target =>
    let input ← version input
    let input ← lineEnd .newLine input
    let (headers, rest) ← Http.headers maxHeaders input
    return ({ method, target, headers }, rest)

/-! ## Responses -/

/-- The head of a response. -/
structure ResponseHead where
  /-- whether the protocol version is 1.0 -/
  isOld : Bool
  /-- the status code, three digits -/
  status : Nat
  /-- the reason; one that is not ASCII is dropped -/
  reason : String
  /-- the headers in order -/
  headers : List RawHeader
  deriving DecidableEq, Repr

/-- A decimal digit. -/
def digit : Bytes → Except Stop (Nat × Bytes)
  | [] => .error .incomplete
  | b :: rest =>
    if 0x30 ≤ b && b ≤ 0x39 then .ok (b.toNat - 0x30, rest) else .error (.invalid .status)

/-- The reason up to the end of the line. It may be missing together with the space before it. -/
def reason : Bytes → Except Stop (String × Bytes)
  | 0x20 :: input => do
    let reason := input.takeWhile isValue
    let rest ← lineEnd .status (input.dropWhile isValue)
    if reason.any (0x80 ≤ ·) then return ("", rest)
    return (String.ofList (reason.map fun b => Char.ofNat b.toNat), rest)
  | input => do
    let rest ← lineEnd .status input
    return ("", rest)

/-- The head of a response and what follows it. -/
def ResponseHead.read (input : Bytes) : Except Stop (ResponseHead × Bytes) := do
  let input ← skipEmptyLines input
  let isOld := input.take 8 == Bytes.ofString "HTTP/1.0"
  let input ← version input
  let input ← space .version input
  let (hundreds, input) ← digit input
  let (tens, input) ← digit input
  let (ones, input) ← digit input
  let (reason, input) ← Http.reason input
  let (headers, rest) ← Http.headers maxHeaders input
  return ({ isOld, status := hundreds * 100 + tens * 10 + ones, reason, headers }, rest)

end Http

end SealedTunnel
