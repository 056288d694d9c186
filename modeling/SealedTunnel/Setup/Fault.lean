import SealedTunnel.Text.Decimal

/-!
# Faults of a setup

* `Setting` — what can be set from outside, and under which name.
* `ValueFault` — why a text is no value of a setting.
* `SetupFault` — why a client cannot be set up, with the text shown for it.
-/

namespace SealedTunnel

/-! ## Settings -/

/-- What can be set from outside. -/
inductive Setting where
  /-- whether real data is exchanged -/
  | environment
  /-- the name of the calling program -/
  | userAgent
  /-- the longest time to connect -/
  | connectTimeout
  /-- the longest time for an exchange -/
  | timeout
  /-- the longest time that a connection is kept for reuse -/
  | idleTimeout
  /-- how many connections are kept for reuse -/
  | maxIdle
  /-- the time between two signs of life -/
  | keepalive
  /-- whether any server certificate is accepted -/
  | acceptInvalidCerts
  /-- whether encrypted transport is left to a proxy -/
  | downgrade
  /-- the file with the trust anchors -/
  | trustAnchors
  /-- whether responders go unchecked -/
  | insecureTrust
  /-- how old a revocation status may be -/
  | maxAge
  deriving DecidableEq, Repr

namespace Setting

/-- All settings in the order they are read. -/
def all : List Setting := [
  environment, userAgent, connectTimeout, timeout, idleTimeout, maxIdle, keepalive,
  acceptInvalidCerts, downgrade, trustAnchors, insecureTrust, maxAge]

/-- The variable that holds a setting. -/
def variableName : Setting → String
  | environment => "VAU_PU"
  | userAgent => "VAU_X_USERAGENT"
  | connectTimeout => "VAU_CONNECT_TIMEOUT"
  | timeout => "VAU_TIMEOUT"
  | idleTimeout => "VAU_POOL_IDLE_TIMEOUT"
  | maxIdle => "VAU_POOL_MAX_IDLE_PER_HOST"
  | keepalive => "VAU_TCP_KEEPALIVE"
  | acceptInvalidCerts => "VAU_ACCEPT_INVALID_CERTS"
  | downgrade => "VAU_DOWNGRADE_HTTPS"
  | trustAnchors => "VAU_TRUST_ANCHORS"
  | insecureTrust => "VAU_INSECURE_TRUST"
  | maxAge => "VAU_OCSP_MAX_AGE"

end Setting

/-! ## Faults -/

/-- Why a text is no value of a setting. -/
inductive ValueFault where
  /-- it is not a switch -/
  | noSwitch (value : String)
  /-- it names no calling program -/
  | noUserAgent
  /-- it names no file -/
  | noPath
  /-- it is not a number -/
  | noNumber (fault : Text.DecimalFault)
  deriving DecidableEq, Repr

/-- The text shown for a fault. -/
def ValueFault.message : ValueFault → String
  | noSwitch value => s!"Unable to parse switch, want on|off: {value}"
  | noUserAgent => "user agent empty"
  | noPath => "trust anchor path empty"
  | noNumber fault => fault.message

/-- Why a client cannot be set up. -/
inductive SetupFault where
  /-- a setting has an unusable value -/
  | value (setting : Setting) (fault : ValueFault)
  /-- the calling program has no name -/
  | noUserAgent
  /-- the name of the calling program cannot be sent -/
  | invalidUserAgent
  /-- nothing says whom to trust -/
  | noTrustAnchors
  /-- no revocation status would be fresh enough -/
  | noMaxAge
  /-- the file with the trust anchors cannot be read -/
  | unreadableAnchors (path reason : String)
  /-- the trust anchors are no certificates -/
  | malformedAnchors (reason : String)
  /-- there are no trust anchors in the file -/
  | emptyAnchors
  /-- there is no outer transport -/
  | noTransport
  /-- there is no trust policy -/
  | noTrustPolicy
  deriving DecidableEq, Repr

namespace SetupFault

/-- What failed, from the outermost step to the cause. -/
def chain : SetupFault → List String
  | value setting fault =>
    ["reading " ++ setting.variableName, "\x60" ++ setting.variableName.toLower ++ "\x60",
      fault.message]
  | noUserAgent => ["no user agent configured"]
  | invalidUserAgent => ["invalid user agent: failed to parse header value"]
  | noTrustAnchors => ["no trust anchors configured"]
  | noMaxAge => ["OCSP max age must be positive"]
  | unreadableAnchors path reason => ["read " ++ path, reason]
  | malformedAnchors reason => ["parse trust anchors", reason]
  | emptyAnchors => ["no trust anchors given"]
  | noTransport => ["no outer transport configured"]
  | noTrustPolicy => ["no trust policy configured"]

/-- The text shown for a fault. -/
def message (f : SetupFault) : String := ": ".intercalate f.chain

end SetupFault

end SealedTunnel
