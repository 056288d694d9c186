import SealedTunnel.Channel.Key
import SealedTunnel.Setup.Fault
import SealedTunnel.Text.Blank
import SealedTunnel.Text.Span

/-!
# Settings of a client

* `Settings` — what a client is set up with; `Settings.default`.
* `Settings.set` — give one setting the value that a text shows.
* `Settings.check` — whether a client may be set up so.
* `Settings.ofLookup` — the defaults, changed as the variables say.
-/

namespace SealedTunnel

/-- What a client is set up with. -/
structure Settings where
  /-- whether real data is exchanged -/
  environment : Environment
  /-- the name of the calling program -/
  userAgent : Option String
  /-- the longest time to connect -/
  connectTimeout : Span
  /-- the longest time for an exchange -/
  timeout : Span
  /-- the longest time that a connection is kept for reuse -/
  idleTimeout : Span
  /-- how many connections are kept for reuse -/
  maxIdle : Nat
  /-- the time between two signs of life -/
  keepalive : Span
  /-- whether any server certificate is accepted -/
  acceptInvalidCerts : Bool
  /-- whether encrypted transport is left to a proxy -/
  downgrade : Bool
  /-- the file with the trust anchors -/
  trustAnchors : Option String
  /-- whether responders go unchecked -/
  insecureTrust : Bool
  /-- how old a revocation status may be -/
  maxAge : Span
  deriving DecidableEq, Repr

namespace Settings

/-- What holds unless something else is set. -/
def default : Settings where
  environment := .testing
  userAgent := none
  connectTimeout := .ofSeconds 2
  timeout := .ofSeconds 10
  idleTimeout := .ofSeconds 30
  maxIdle := 64
  keepalive := .ofSeconds 30
  acceptInvalidCerts := false
  downgrade := false
  trustAnchors := none
  insecureTrust := false
  maxAge := .ofSeconds 86400

/-! ## Values -/

/-- A switch is `on` or `off` in any case. -/
def readSwitch (value : String) : Except ValueFault Bool :=
  if Text.sameWord value "on" then .ok true
  else if Text.sameWord value "off" then .ok false
  else .error (.noSwitch value)

/-- Numbers in settings stay below this bound. -/
def numberBound : Nat := 2 ^ 64

/-- A number, possibly with blanks around it. -/
def readNumber (value : String) : Except ValueFault Nat :=
  match Text.readNatural numberBound (Text.trim value) with
  | .ok n => .ok n
  | .error fault => .error (.noNumber fault)

/-- A span in whole seconds. -/
def readSpan (value : String) : Except ValueFault Span := return .ofSeconds (← readNumber value)

/-- A text without the blanks around it, of which something has to be left. -/
def readText (fault : ValueFault) (value : String) : Except ValueFault String :=
  if Text.trim value = "" then .error fault else .ok (Text.trim value)

/-- Give one setting the value that a text shows. -/
def set (s : Settings) (setting : Setting) (value : String) : Except ValueFault Settings :=
  match setting with
  | .environment =>
    return { s with environment := if ← readSwitch value then .production else .testing }
  | .userAgent => return { s with userAgent := some (← readText .noUserAgent value) }
  | .connectTimeout => return { s with connectTimeout := ← readSpan value }
  | .timeout => return { s with timeout := ← readSpan value }
  | .idleTimeout => return { s with idleTimeout := ← readSpan value }
  | .maxIdle => return { s with maxIdle := ← readNumber value }
  | .keepalive => return { s with keepalive := ← readSpan value }
  | .acceptInvalidCerts => return { s with acceptInvalidCerts := ← readSwitch value }
  | .downgrade => return { s with downgrade := ← readSwitch value }
  | .trustAnchors => return { s with trustAnchors := some (← readText .noPath value) }
  | .insecureTrust => return { s with insecureTrust := ← readSwitch value }
  | .maxAge => return { s with maxAge := ← readSpan value }

/-! ## All of them -/

/-- Whether a client may be set up so: it names itself, knows whom to trust or says that it does not
care, and accepts revocation statuses of some age. -/
def check (s : Settings) : Except SetupFault Unit :=
  if Text.trim (s.userAgent.getD "") = "" then .error .noUserAgent
  else if s.trustAnchors = none ∧ s.insecureTrust = false then .error .noTrustAnchors
  else if s.maxAge = ⟨0⟩ then .error .noMaxAge
  else .ok ()

/-- The settings after one variable. -/
def setFrom (lookup : String → Option String) (s : Settings) (setting : Setting) :
    Except SetupFault Settings :=
  match lookup setting.variableName with
  | none => .ok s
  | some value =>
    match s.set setting value with
    | .ok s => .ok s
    | .error fault => .error (.value setting fault)

/-- The defaults, changed as the variables say. -/
def ofLookup (lookup : String → Option String) : Except SetupFault Settings := do
  let s ← Setting.all.foldlM (setFrom lookup) default
  s.check
  return s

end Settings

end SealedTunnel
