import SealedTunnel.Channel.Responder

/-!
# Descriptions for logs

What may be shown of the channel's values. None of these texts holds a secret:
keys and shared secrets are left out, and a ciphertext is shown by its length.
-/

namespace SealedTunnel

/-- A text in quotes, with quotes and backslashes escaped. -/
def quoted (s : String) : String :=
  "\"" ++ String.ofList (s.toList.flatMap fun c =>
    if c = '"' ∨ c = '\\' then ['\\', c] else [c]) ++ "\""

/-- The bytes of a string as decimal numbers. -/
def describeBytes (b : Bytes) : String :=
  "[" ++ ", ".intercalate (b.map fun x => toString x.toNat) ++ "]"

/-- A value's name and its shown parts, in braces; `more` says that other parts are left out. -/
def describeRecord (name : String) (parts : List (String × String)) (more : Bool) : String :=
  let shown := parts.map fun (part, value) => part ++ ": " ++ value
  name ++ " \x7b " ++ ", ".intercalate (if more then shown ++ [".."] else shown) ++ " \x7d"

/-- An environment's name. -/
def Environment.describe : Environment → String
  | .production => "Production"
  | .testing => "Testing"

/-- An end's name. -/
def Role.describe : Role → String
  | .initiator => "Initiator"
  | .responder => "Responder"

/-- Public keys are not shown. -/
def KeyPair.describePublic (_ : KeyPair) : String := "PublicKeys (opaque)"

/-- A point with its coordinates. -/
def CurvePoint.describe (p : CurvePoint) : String :=
  describeRecord "EcdhKey"
    [("crv", quoted p.curve), ("x", describeBytes p.x), ("y", describeBytes p.y)] false

/-- What travels of an encapsulation. -/
def Encapsulation.describe (e : Encapsulation) : String :=
  describeRecord "EncapsulationResult"
    [("ecdh_ct", e.point.describe), ("kyber_ct_len", toString e.ciphertext.length)] true

/-- The name of session keys. -/
def SessionKeys.describe (k : SessionKeys) : String :=
  describeRecord "SessionKeySet" [("key_id", describeBytes k.keyId)] true

/-- A session's end and counters. -/
def Session.describe (s : Session) : String :=
  describeRecord "Session"
    [("role", s.role.describe), ("env", s.environment.describe), ("sent", toString s.sent),
      ("received", toString s.received)] true

/-- A session and when it ends. -/
def TimedSession.describe (t : TimedSession) : String :=
  describeRecord "SessionState"
    [("session", t.session.describe), ("expires", toString t.expires)] false

/-- A handshake in progress. -/
def Handshake.describe (h : Handshake) : String :=
  describeRecord "HandshakeState"
    [("first", h.first.describe), ("transcript", describeBytes h.transcript)] false

/-- The name of an error and its parts. -/
def ChannelError.describe : ChannelError → String
  | malformedKey reason => s!"MalformedKey({quoted reason})"
  | missingSecret what => s!"MissingSecret({quoted what})"
  | invalidSecretLength what length =>
    describeRecord "InvalidSecretLength" [("what", quoted what), ("len", toString length)] false
  | untrustedChain reason => s!"UntrustedChain({quoted reason})"
  | revocationCheckFailed reason => s!"RevocationCheckFailed({quoted reason})"
  | roleMismatch reason => s!"RoleMismatch({quoted reason})"
  | signatureInvalid reason => s!"SignatureInvalid({quoted reason})"
  | certificateUnavailable reason => s!"CertificateUnavailable({quoted reason})"
  | expiredKeys expiry now =>
    describeRecord "ExpiredKeys" [("exp", toString expiry), ("now", toString now)] false
  | transcriptMismatch message => s!"TranscriptMismatch({message})"
  | malformedMessage message reason =>
    describeRecord "MalformedMessage"
      [("message", toString message), ("reason", quoted reason)] false
  | authentication step => s!"Authentication({quoted step})"
  | counterMismatch expected actual =>
    describeRecord "CounterMismatch"
      [("expected", toString expected), ("actual", toString actual)] false
  | keyIdMismatch => "KeyIdMismatch"
  | malformedFrame reason => s!"MalformedFrame({quoted reason})"
  | unknownCid => "UnknownCid"
  | internal what => s!"Internal({quoted what})"

end SealedTunnel
