import SealedTunnel.Http.Head
import SealedTunnel.Text.Blank
import SealedTunnel.Text.Decimal

/-!
# HTTP messages inside the tunnel

* `Method`, `Request`, `Response` — what is tunnelled.
* `Fault` — why a message cannot be written or read.
* `Request.encode`, `Response.encode` — the written form. The length of the body is always stated
  and never chunked.
* `Request.decode`, `Response.decode` — a message that is the whole of its input.
-/

namespace SealedTunnel

namespace Http

/-! ## Messages -/

/-- Whether a text may name a method: a token that is not empty. -/
def isMethodName (name : String) : Bool :=
  name ≠ "" && (Bytes.ofString name).all isToken

/-- A request method. -/
structure Method where
  /-- its name -/
  name : String
  /-- the name is a token -/
  valid : isMethodName name = true
  deriving DecidableEq, Repr

namespace Method

/-- The method with a name, if it may be one. -/
def ofName? (name : String) : Option Method :=
  if valid : isMethodName name = true then some ⟨name, valid⟩ else none

/-- Retrieve. -/
def get : Method := ⟨"GET", by decide +kernel⟩

/-- Process. -/
def post : Method := ⟨"POST", by decide +kernel⟩

/-- Replace. -/
def put : Method := ⟨"PUT", by decide +kernel⟩

/-- Remove. -/
def delete : Method := ⟨"DELETE", by decide +kernel⟩

end Method

/-- A header: its name and its value. -/
abbrev Header : Type := String × String

/-- A request for a path; the other end of the tunnel decides the host. -/
structure Request where
  /-- what to do -/
  method : Method
  /-- path and query -/
  path : String
  /-- the headers in order -/
  headers : List Header
  /-- the body, if there is one -/
  body : Option Bytes
  deriving DecidableEq, Repr

/-- The headers that name the calling program. -/
def userAgentHeaders : List String := ["user-agent", "x-useragent"]

/-- The request with `userAgent` as the only name of the calling program. -/
def Request.withUserAgent (r : Request) (userAgent : String) : Request :=
  let others := r.headers.filter fun (name, _) => !userAgentHeaders.any (Text.sameWord name)
  { r with headers := others ++ userAgentHeaders.map fun name => (name, userAgent) }

/-- The answer to a request. -/
structure Response where
  /-- the status code -/
  status : Nat
  /-- its explanation -/
  reason : String
  /-- the headers in order -/
  headers : List Header
  /-- the body -/
  body : Bytes
  deriving DecidableEq, Repr

/-- The first value of a header. -/
def Response.header? (r : Response) (name : String) : Option String :=
  (r.headers.find? fun (other, _) => Text.sameWord other name).map Prod.snd

/-! ## Faults -/

/-- The two kinds of message. -/
inductive Kind where
  /-- a request -/
  | request
  /-- a response -/
  | response
  deriving DecidableEq, Repr

/-- A kind's name. -/
def Kind.name : Kind → String
  | request => "request"
  | response => "response"

/-- Why a message cannot be written or read. -/
inductive Fault where
  /-- a method that is not for the tunnel -/
  | unsupportedMethod (name : String)
  /-- a target that is no path -/
  | invalidTarget (target : String)
  /-- a name with characters that header names do not have -/
  | invalidHeaderName (name : String)
  /-- a header about the connection -/
  | unsupportedHeader (name : String)
  /-- a value that would end its line -/
  | lineBreak (name : String)
  /-- a head that breaks the grammar -/
  | invalidHead (kind : Kind) (fault : HeadFault)
  /-- a head without an end -/
  | partialHead (kind : Kind)
  /-- a value that is not UTF-8 -/
  | invalidText (name : String)
  /-- more than one length -/
  | duplicateLength
  /-- a length that is no number -/
  | invalidLength (value : String)
  /-- a length that the body does not reach -/
  | truncated (length available : Nat)
  deriving DecidableEq, Repr

/-- The text shown for a fault. -/
def Fault.message : Fault → String
  | unsupportedMethod name => s!"unsupported method {name}"
  | invalidTarget target => s!"invalid request target '{target}'"
  | invalidHeaderName name => s!"invalid header name '{name}'"
  | unsupportedHeader name => s!"unsupported header '{name}'"
  | lineBreak name => s!"line break in value of '{name}'"
  | invalidHead kind fault => s!"invalid {kind.name} head: {fault.message}"
  | partialHead kind => s!"partial {kind.name} head"
  | invalidText name => s!"non-utf-8 value of '{name}'"
  | duplicateLength => "duplicate content-length"
  | invalidLength value => s!"invalid content-length '{value}'"
  | truncated length available =>
    s!"body truncated: content-length {length}, {available} bytes available"

/-! ## Writing -/

/-- Whether a header name may be written: letters, digits, hyphens and underscores. -/
def isHeaderName (name : String) : Bool :=
  name ≠ "" && name.toList.all fun c => c.isAlphanum || c == '-' || c == '_'

/-- Headers about the connection, which a tunnel does not have. -/
def connectionHeaders : List String := ["te", "transfer-coding"]

/-- Whether a header is dropped: the length is computed, and a body is never chunked. -/
def isDropped (name value : String) : Bool :=
  name == "content-length" ||
    (name == "transfer-encoding" && Text.occursIn "chunked".toList (Text.lower value).toList)

/-- A header as it is written, or nothing if it is dropped. -/
def writtenHeader : Header → Except Fault (Option Header)
  | (name, value) =>
    let lower := Text.lower name
    if isHeaderName name = false then .error (.invalidHeaderName name)
    else if lower ∈ connectionHeaders then .error (.unsupportedHeader lower)
    else if value.toList.any fun c => c == '\r' || c == '\n' then .error (.lineBreak lower)
    else if isDropped lower value then .ok none
    else .ok (some (lower, Text.trim value))

/-- The headers as they are written, the length of the body last. -/
def writtenHeaders (headers : List Header) (length : Nat) : Except Fault (List Header) := do
  let written ← headers.mapM writtenHeader
  return written.filterMap id ++ [("content-length", toString length)]

/-- A message of a first line, headers and a body. -/
def writeMessage (firstLine : String) (headers : List Header) (body : Bytes) : Bytes :=
  let line := fun (s : String) => Bytes.ofString s ++ [0x0d, 0x0a]
  line firstLine ++ headers.flatMap (fun (name, value) => line (name ++ ": " ++ value)) ++
    [0x0d, 0x0a] ++ body

/-- The methods for the tunnel. -/
def tunnelMethods : List Method := [.get, .post, .put, .delete]

/-- Whether a text can stand as a target: an absolute path without spaces and line breaks. -/
def isTargetText (path : String) : Bool :=
  path.toList.head? == some '/' && !path.toList.any fun c => c == ' ' || c == '\r' || c == '\n'

/-- The written form of a request. -/
def Request.encode (r : Request) : Except Fault Bytes := do
  if r.method ∉ tunnelMethods then throw (.unsupportedMethod r.method.name)
  if isTargetText r.path = false then throw (.invalidTarget r.path)
  let body := r.body.getD []
  let headers ← writtenHeaders r.headers body.length
  return writeMessage (r.method.name ++ " " ++ r.path ++ " HTTP/1.1") headers body

/-- The written form of a response. -/
def Response.encode (r : Response) : Except Fault Bytes := do
  let headers ← writtenHeaders r.headers r.body.length
  return writeMessage ("HTTP/1.1 " ++ toString r.status ++ " " ++ r.reason) headers r.body

/-! ## Reading -/

/-- The text of ASCII bytes. -/
def asciiText (b : Bytes) : String := String.ofList (b.map fun x => Char.ofNat x.toNat)

/-- A header from its bytes: the name in lower case, the value without blanks around it. -/
def readHeader : RawHeader → Except Fault Header
  | (name, value) =>
    match Bytes.toString? value with
    | some text => .ok (Text.lower (asciiText name), Text.trim text)
    | none => .error (.invalidText (asciiText name))

/-- Lengths stay below this bound. -/
def lengthBound : Nat := 2 ^ 64

/-- The length that the headers state, if they state one. -/
def statedLength (headers : List Header) : Except Fault (Option Nat) :=
  match headers.filter (·.1 == "content-length") with
  | [] => .ok none
  | [(_, value)] =>
    match Text.readNatural lengthBound value with
    | .ok n => .ok (some n)
    | .error _ => .error (.invalidLength value)
  | _ => .error .duplicateLength

/-- The body in what follows a head: as long as stated, or all of it. -/
def readBody (headers : List Header) (rest : Bytes) : Except Fault Bytes := do
  match ← statedLength headers with
  | none => return rest
  | some n => if rest.length < n then throw (.truncated n rest.length) else return rest.take n

/-- Report a head that could not be read. -/
def headResult {α : Type} (kind : Kind) : Except Stop α → Except Fault α
  | .ok a => .ok a
  | .error .incomplete => .error (.partialHead kind)
  | .error (.invalid fault) => .error (.invalidHead kind fault)

/-- The response in a byte string. -/
def Response.decode (b : Bytes) : Except Fault Response := do
  let (head, rest) ← headResult .response (ResponseHead.read b)
  let headers ← head.headers.mapM readHeader
  let body ← readBody headers rest
  return { status := head.status, reason := head.reason, headers, body }

/-- The request in a byte string. A body without bytes counts as none. -/
def Request.decode (b : Bytes) : Except Fault Request := do
  let (head, rest) ← headResult .request (RequestHead.read b)
  match Method.ofName? (asciiText head.method) with
  | none => throw (.invalidHead .request .token)
  | some method =>
    let headers ← head.headers.mapM readHeader
    let body ← readBody headers rest
    return { method, path := head.target, headers, body := if body = [] then none else some body }

end Http

end SealedTunnel
