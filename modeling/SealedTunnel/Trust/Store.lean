import SealedTunnel.Setup.Settings
import SealedTunnel.Trust.Admission
import SealedTunnel.Trust.CertData
import SealedTunnel.Trust.Ocsp

/-!
# Trust in a responder

* `TrustStore` — trust anchors, and how old a revocation status may be.
* `verifySignature` — the check of a signature that is given as `r ‖ s`.
* `TrustStore.verify` — whether signed keys are trusted, in a fixed order of checks.
* `TrustPolicy` — all checks or none.
-/

namespace SealedTunnel

/-! ## Trust anchors -/

/-- Trust anchors, and how old a revocation status may be. -/
structure TrustStore where
  /-- the roots of trust -/
  anchors : List Certificate
  /-- how old a revocation status may be -/
  maxAge : Span
  deriving DecidableEq, Repr

namespace TrustStore

/-- What may be shown of a store. -/
def describe (s : TrustStore) : String :=
  describeRecord "TrustStore" [("ocsp_max_age", s.maxAge.text)] true

/-- A store of given anchors, at least one. -/
def ofCertificates (anchors : List Certificate) (maxAge : Span) : Except SetupFault TrustStore :=
  if anchors = [] then .error .emptyAnchors else .ok { anchors, maxAge }

/-- A store of the certificates in a text. -/
def ofPem (pem : Bytes) (maxAge : Span) : ExceptT SetupFault Consult TrustStore := do
  match (← Consult.ask (.certificates pem) : Except String (List Certificate)) with
  | .error reason => throw (.malformedAnchors reason)
  | .ok anchors => ofCertificates anchors maxAge

/-- A store of the certificates in a file. -/
def ofFile (path : String) (maxAge : Span) : ExceptT SetupFault Consult TrustStore := do
  match (← Consult.ask (.file path) : Except String Bytes) with
  | .error reason => throw (.unreadableAnchors path reason)
  | .ok pem => ofPem pem maxAge

end TrustStore

/-! ## Checks -/

/-- A check of trust: it may ask, and it may fail. -/
abbrev Check (α : Type) : Type := ExceptT ChannelError Consult α

/-- How many bytes each half of a signature has. -/
def signatureHalf : Nat := 32

/-- A signature, given as `r ‖ s`, is the key's signature of the payload. If its check goes wrong,
it counts as wrong. -/
def verifySignature (key : VerifyingKey) (payload signature : Bytes) : Check Unit := do
  if signature.length ≠ 2 * signatureHalf then
    throw (.signatureInvalid
      s!"expected {2 * signatureHalf} signature bytes, found {signature.length}")
  let r := Bytes.toNat (signature.take signatureHalf)
  let s := Bytes.toNat (signature.drop signatureHalf)
  match (← Consult.ask (.encodeSignature r s) : Except String Bytes) with
  | .error reason => throw (.signatureInvalid reason)
  | .ok encoded =>
    match (← Consult.ask (.verify .sha256 key payload encoded) :
      Except String (Except String Bool)) with
    | .error reason => throw (.signatureInvalid reason)
    | .ok (.ok true) => return ()
    | .ok _ => throw (.signatureInvalid "signature over signed_pub_keys does not verify")

/-- The certificate in an encoding; `what` names it in the error. -/
def parseCertificate (what : String) (der : Bytes) : Check Certificate := do
  match (← Consult.ask (.certificate der) : Except String Certificate) with
  | .ok certificate => return certificate
  | .error reason => throw (.untrustedChain s!"{what}: {reason}")

/-- The key in a certificate. -/
def keyOf (certificate : Certificate) : Check VerifyingKey := do
  match (← Consult.ask (.publicKey certificate) : Except String VerifyingKey) with
  | .ok key => return key
  | .error reason => throw (.signatureInvalid s!"certificate key: {reason}")

namespace TrustStore

variable {ρ : Type} (S : Suite ρ) (store : TrustStore)

/-- A path leads from a certificate over `chain` to an anchor; `what` names it in the error. -/
def checkPath (what : String) (certificate : Certificate) (chain : List Certificate) :
    Check Unit := do
  match (← Consult.ask (.path certificate chain store.anchors) : Except String PathVerdict) with
  | .ok .valid => return ()
  | .ok (.invalid reason) | .error reason => throw (.untrustedChain s!"{what}: {reason}")

/-- The public keys in `signed`, after all checks, at `now` in seconds since the epoch: the
certificate is the one that was named, it and its issuer lead to an anchor, it is not revoked, it is
the certificate of a responder with the required profession, and its key has signed. -/
def verify (required : Der.Oid) (signed : SignedKeys) (data : CertData) (now : Int) :
    Check PublicKeys := do
  if S.hash data.cert ≠ signed.certHash then
    throw (.untrustedChain "certificate hash does not match CertData")
  let leaf ← parseCertificate "parse certificate" data.cert
  let ca ← parseCertificate "parse issuing CA" data.ca
  let chain ← data.chain.mapM (parseCertificate "parse root chain")
  store.checkPath "certificate" leaf (ca :: chain)
  store.checkPath "issuing CA" ca chain
  Ocsp.verify S signed.ocsp data.cert ca now store.maxAge
  match checkAdmission data.cert required with
  | .error fault => throw (.roleMismatch fault.message)
  | .ok () =>
    let key ← keyOf leaf
    verifySignature key signed.payload signed.signature
    signed.publicKeys

end TrustStore

/-! ## Policies -/

/-- How responders are judged. -/
inductive TrustPolicy where
  /-- by all checks -/
  | verify (store : TrustStore)
  /-- not at all; for development -/
  | insecure
  deriving DecidableEq, Repr

namespace TrustPolicy

/-- What may be shown of a policy. -/
def describe : TrustPolicy → String
  | verify store => s!"Verify({store.describe})"
  | insecure => "Insecure"

/-- The policy that settings ask for. -/
def ofSettings (s : Settings) : ExceptT SetupFault Consult TrustPolicy :=
  if s.insecureTrust then return .insecure
  else
    match s.trustAnchors with
    | some path => return .verify (← TrustStore.ofFile path s.maxAge)
    | none => throw .noTrustAnchors

/-- The profession of a responder. -/
def responderOid : Der.Oid := ⟨[0x2a, 0x82, 0x14, 0x00, 0x4c, 0x04, 0x81, 0x51]⟩

end TrustPolicy

end SealedTunnel
