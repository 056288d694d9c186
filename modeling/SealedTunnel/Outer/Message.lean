import SealedTunnel.Client.Error
import SealedTunnel.Uri.Basic

/-!
# Outer messages

The requests that carry handshake messages and frames over the untrusted
network, and the answers to them.

* `Outer.Headers` — headers by lower-case name; the values of one name stay together.
* `Outer.Request`, `Outer.Response`.
* `Outer.post`, `Outer.get` — the two kinds of request in use.
* `Outer.expectOk` — an answer with another status than 200 is an error.
-/

namespace SealedTunnel

namespace Outer

/-! ## Headers -/

/-- Headers by lower-case name. A name's values follow each other in the order they were added. -/
abbrev Headers : Type := List (String × Bytes)

namespace Headers

/-- Add a value behind the other values of its name, or at the end. -/
def append : Headers → (name : String) → (value : Bytes) → Headers
  | [], name, value => [(name, value)]
  | (n, v) :: rest, name, value =>
    if n = name ∧ rest.all (·.1 ≠ name) then (n, v) :: (name, value) :: rest
    else (n, v) :: append rest name value

/-- Headers from names in any case. -/
def ofList (list : List (String × Bytes)) : Headers :=
  list.foldl (fun headers (name, value) => append headers (Text.lower name) value) []

/-- The values of a name. -/
def values (headers : Headers) (name : String) : List Bytes :=
  (headers.filter (·.1 = name)).map Prod.snd

/-- Make `value` the only value of a name. -/
def set (headers : Headers) (name : String) (value : Bytes) : Headers :=
  headers.filter (·.1 ≠ name) ++ [(name, value)]

end Headers

/-! ## Requests and responses -/

/-- A request to a host. -/
structure Request where
  /-- what to do -/
  method : Http.Method
  /-- with what, and where -/
  uri : Uri
  /-- the headers -/
  headers : Headers
  /-- the body, possibly empty -/
  body : Bytes
  deriving DecidableEq, Repr

/-- The answer to a request. -/
structure Response where
  /-- the status code -/
  status : Nat
  /-- the headers -/
  headers : Headers
  /-- the body -/
  body : Bytes
  deriving DecidableEq, Repr

/-- What an exchange ends with. -/
abbrev Reply : Type := Except ClientError Response

/-- The format of handshake messages and certificate data. -/
def cborType : String := "application/cbor"

/-- The format of frames. -/
def frameType : String := "application/octet-stream"

/-- The request that posts a body. -/
def post (uri : Uri) (contentType accept : String) (body : Bytes) : Request where
  method := .post
  uri := uri
  headers := [("content-type", Bytes.ofString contentType), ("accept", Bytes.ofString accept)]
  body := body

/-- The request that fetches something. -/
def get (uri : Uri) (accept : String) : Request where
  method := .get
  uri := uri
  headers := [("accept", Bytes.ofString accept)]
  body := []

/-- An answer with another status than 200 is an error. -/
def expectOk (method : String) (uri : Uri) (response : Response) : Reply :=
  if response.status = 200 then .ok response
  else .error (.status method uri.text response.status)

/-- The answer to a request that counts as success. -/
def Request.success (request : Request) (reply : Reply) : Reply :=
  reply.bind (expectOk request.method.name request.uri)

end Outer

end SealedTunnel
