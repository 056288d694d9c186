import SealedTunnel.Channel.Describe
import SealedTunnel.Suite
import SealedTunnel.Der.Oid
import SealedTunnel.Der.Time
import SealedTunnel.Text.Span
import SealedTunnel.Trust.Consult

/-!
# Revocation status

The status of a certificate, signed by its issuer and stapled to the
certificate's use.

* `Ocsp.Signed` — the signed part of a response, its signature and the hash in it;
  `Ocsp.Signed.read`.
* `Ocsp.checkFreshness`, `Ocsp.checkStatus` — what the signed part has to say.
* `Ocsp.verify` — whether a response is a fresh and correctly signed good answer for a certificate.

The signed part is kept as the bytes it came in, so that what is checked and what is read are the
same.
-/

namespace SealedTunnel

namespace Ocsp

open Der

/-! ## Faults -/

/-- The response cannot be used. -/
def fail {α : Type} (reason : String) : Except ChannelError α :=
  .error (.revocationCheckFailed reason)

/-- A part of the response is not what it should be. -/
def malformed {α : Type} (what : String) : Except ChannelError α := fail s!"malformed OCSP {what}"

/-- A part of the response that has to be there. -/
def orMalformed {α : Type} (what : String) : Option α → Except ChannelError α
  | some a => .ok a
  | none => malformed what

/-! ## Elements -/

/-- The elements in the content of another. -/
def children (what : String) (content : Bytes) : Except ChannelError (List Element) :=
  orMalformed (what ++ ": *") (Element.list content)

/-- The only element in the content of another. -/
def single (what : String) (content : Bytes) : Except ChannelError Element := do
  let (e, rest) ← orMalformed (what ++ ": *") (Element.read content)
  if rest.val ≠ [] then malformed (what ++ ": trailing data") else return e

/-- The elements of a sequence that is the only element in the content of another. -/
def sequence (what : String) (content : Bytes) : Except ChannelError (List Element) := do
  let e ← single what content
  if e.tagClass ≠ .universal ∨ e.tag ≠ Tag.sequence then malformed (what ++ ": unexpected tag")
  else children what e.content

/-! ## Identifiers -/

/-- The type of responses that is understood. -/
def basicOid : Oid := ⟨[0x2b, 0x06, 0x01, 0x05, 0x05, 0x07, 0x30, 0x01, 0x01]⟩

/-- The extension with the hash of the certificate. -/
def certHashOid : Oid := ⟨[0x2b, 0x24, 0x08, 0x03, 0x0d]⟩

/-- ECDSA with SHA-256. -/
def ecdsaSha256 : Oid := ⟨[0x2a, 0x86, 0x48, 0xce, 0x3d, 0x04, 0x03, 0x02]⟩

/-- ECDSA with SHA-384. -/
def ecdsaSha384 : Oid := ⟨[0x2a, 0x86, 0x48, 0xce, 0x3d, 0x04, 0x03, 0x03]⟩

/-- RSA with SHA-256. -/
def rsaSha256 : Oid := ⟨[0x2a, 0x86, 0x48, 0x86, 0xf7, 0x0d, 0x01, 0x01, 0x0b]⟩

/-- The hash that goes with a signature algorithm. -/
def digestOf (algorithm : Oid) : Except ChannelError Digest :=
  if algorithm = ecdsaSha256 ∨ algorithm = rsaSha256 then .ok .sha256
  else if algorithm = ecdsaSha384 then .ok .sha384
  else fail s!"unsupported OCSP signature algorithm {algorithm.text}"

/-! ## The signed part -/

/-- The signed part of a response and its signature. -/
structure Signed where
  /-- what is signed -/
  data : Element
  /-- the hash in the signature -/
  digest : Digest
  /-- the signature -/
  signature : Bytes
  deriving DecidableEq, Repr

/-- The content of the response proper, which a successful response holds. -/
def responseContent (response : Bytes) : Except ChannelError Bytes := do
  let outer ← sequence "response" response
  let status ← orMalformed "response: empty" outer.head?
  if status.tag ≠ Tag.enumerated then malformed "response: status"
  else if status.content ≠ [0] then
    fail s!"OCSP response status {describeBytes status.content} is not successful"
  else
    match outer[1]? with
    | none => fail "OCSP response without responseBytes"
    | some e =>
      if e.isContext 0 then return e.content else fail "OCSP response without responseBytes"

/-- The content of a response of the type that is understood. -/
def basicContent (content : Bytes) : Except ChannelError Bytes := do
  match ← sequence "responseBytes" content with
  | [kind, basic] =>
    if Oid.ofElement kind ≠ basicOid then fail "OCSP response is not id-pkix-ocsp-basic"
    else if basic.tag ≠ Tag.octetString then malformed "responseBytes: response"
    else return basic.content
  | _ => malformed "responseBytes"

/-- The signed part of a response. -/
def Signed.read (response : Bytes) : Except ChannelError Signed := do
  let basic ← basicContent (← responseContent response)
  match ← sequence "BasicOCSPResponse" basic with
  | data :: algorithm :: signature :: _ =>
    let algorithm ← children "signatureAlgorithm" algorithm.content
    let algorithm ← orMalformed "signatureAlgorithm" algorithm.head?
    if signature.tag ≠ Tag.bitString then malformed "signature"
    else
      match signature.content with
      | 0 :: signature => return { data, digest := ← digestOf (Oid.ofElement algorithm), signature }
      | _ => malformed "signature: unused bits"
  | _ => malformed "BasicOCSPResponse"

/-! ## What it says -/

/-- How far the clocks may be apart, in seconds. -/
def maxSkew : Int := 300

/-- The nearest number of 64 bits with sign. -/
def clamp (n : Int) : Int := max (-2 ^ 63) (min (2 ^ 63 - 1) n)

/-- The response may be so old, and hardly newer than now. -/
def checkFreshness (produced : Element) (now : Int) (maxAge : Span) : Except ChannelError Unit := do
  let produced := (← orMalformed "producedAt: *" (timeOf? produced)).seconds
  if clamp maxAge.seconds < clamp (now - produced) then fail "OCSP response too old"
  else if maxSkew < clamp (produced - now) then fail "OCSP response produced in the future"
  else return ()

/-- The value of the extension that names the certificate by its hash. -/
def certHashValue (extensions : List Element) : Except ChannelError Bytes := do
  let parts ← extensions.mapM fun e => children "extension" e.content
  let value? := fun (parts : List Element) =>
    match parts with
    | id :: rest =>
      if Oid.ofElement id = certHashOid then rest.getLast?.map Element.content else none
    | [] => none
  match parts.findSome? value? with
  | some value => return value
  | none => fail "OCSP response lacks certHash extension"

/-- A status is good and names the certificate with this hash. -/
def checkStatus (status : Element) (hash : Bytes) : Except ChannelError Unit := do
  let fields ← children "SingleResponse" status.content
  let verdict ← orMalformed "SingleResponse" fields[1]?
  if verdict.isContext 1 then fail "certificate revoked"
  else if verdict.isContext 2 then fail "certificate status unknown"
  else if verdict.isContext 0 = false then malformed "certStatus"
  else
    match (fields.drop 3).find? (·.isContext 1) with
    | none => fail "OCSP response lacks certHash extension"
    | some e =>
      let extensions ← single "singleExtensions" e.content
      let value ← certHashValue (← children "singleExtensions" extensions.content)
      let certHash ← single "certHash" value
      match (← children "certHash" certHash.content)[1]? with
      | none => malformed "certHash"
      | some found =>
        if found.tag ≠ Tag.octetString then malformed "certHash"
        else if found.content ≠ hash then fail "OCSP certHash does not match certificate"
        else return ()

/-- The signed part is fresh and holds exactly one status, which is good. -/
def checkData (data : Element) (hash : Bytes) (now : Int) (maxAge : Span) :
    Except ChannelError Unit := do
  let fields := (← children "tbsResponseData" data.content).dropWhile (·.isContext 0)
  match fields with
  | [] => malformed "tbsResponseData: responderID"
  | responder :: rest =>
    if responder.isContext 1 = false ∧ responder.isContext 2 = false then
      malformed "tbsResponseData: responderID"
    else
      let produced ← orMalformed "tbsResponseData: producedAt" rest.head?
      checkFreshness produced now maxAge
      let responses ← orMalformed "tbsResponseData: responses" rest[1]?
      match ← children "responses" responses.content with
      | [status] => checkStatus status hash
      | list => fail s!"expected exactly one OCSP SingleResponse, found {list.length}"

/-! ## Verification -/

/-- The issuer has signed. If the check of a signature goes wrong, it counts as wrong. -/
def Signed.check (s : Signed) (issuer : Certificate) : ExceptT ChannelError Consult Unit := do
  match (← Consult.ask (.publicKey issuer) : Except String VerifyingKey) with
  | .error reason => fail s!"OCSP signature check: {reason}"
  | .ok key =>
    match (← Consult.ask (.verify s.digest key s.data.raw s.signature) :
      Except String (Except String Bool)) with
    | .error reason => fail s!"OCSP signature check: {reason}"
    | .ok (.ok true) => return ()
    | .ok _ => fail "OCSP signature invalid"

/-- A response is a fresh and correctly signed good answer for the certificate `leaf`. -/
def verify {ρ : Type} (S : Suite ρ) (response leaf : Bytes) (issuer : Certificate) (now : Int)
    (maxAge : Span) : ExceptT ChannelError Consult Unit := do
  if response = [] then throw (.revocationCheckFailed "missing OCSP response")
  let signed ← Signed.read response
  signed.check issuer
  checkData signed.data (S.hash leaf) now maxAge

end Ocsp

end SealedTunnel
