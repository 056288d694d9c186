import SealedTunnel.Client.Error
import SealedTunnel.Uri.Parse

/-!
# Where a client sends what

Channels are bound to the root of a host: paths of the protocol never nest under the path of an
endpoint.

* `resolve`, `destination` — a path on the host of an identifier, and its root.
* `certDataUri` — where a host publishes certificates.
* `channelId` — the check of the identifier that a responder gives to a channel.
* `downgrade` — the identifier without encryption, for a proxy that adds it.
-/

namespace SealedTunnel

/-- `path` on the host of `endpoint`. -/
def resolve (endpoint : Uri) (path : String) : Except ClientError Uri :=
  match Target.ofText path with
  | .error fault => .error (.transport s!"invalid path {path}: {fault.message}")
  | .ok target =>
    match endpoint.withTarget target with
    | .error fault => .error (.transport s!"invalid uri for {endpoint.text}: {fault.message}")
    | .ok uri => .ok uri

/-- The root of the host of `endpoint`, which a channel is bound to. -/
def destination (endpoint : String) : Except ClientError Uri :=
  match Uri.ofText endpoint with
  | .error fault => .error (.transport s!"invalid endpoint {endpoint}: {fault.message}")
  | .ok (.absolute scheme authority target) => resolve (.absolute scheme authority target) "/"
  | .ok _ => .error (.transport s!"invalid endpoint {endpoint}: scheme and host required")

/-! ## Paths of the protocol -/

/-- Where handshakes start. -/
def handshakePath : String := "/VAU"

/-- The path of the certificates that go with a certificate hash and a version. -/
def certDataPath (certHash : Bytes) (version : UInt64) : String :=
  s!"/CertData.{Bytes.hex certHash}-{version}"

/-- Where the host of `endpoint` publishes the certificates that go with a hash and a version. -/
def certDataUri (endpoint : Uri) (certHash : Bytes) (version : UInt64) : Except ChannelError Uri :=
  match Target.ofText (certDataPath certHash version) with
  | .error fault => .error (.certificateUnavailable fault.message)
  | .ok target =>
    match endpoint.withTarget target with
    | .error fault => .error (.certificateUnavailable fault.message)
    | .ok uri => .ok uri

/-! ## Channel identifiers -/

/-- The most bytes of a channel identifier. -/
def maxCidLength : Nat := 200

/-- Whether a byte may stand in a channel identifier: a letter, a digit, a hyphen or a slash. -/
def isCidByte (b : UInt8) : Bool :=
  (0x30 ≤ b && b ≤ 0x39) || (0x41 ≤ b && b ≤ 0x5a) || (0x61 ≤ b && b ≤ 0x7a) ||
    b == 0x2d || b == 0x2f

/-- Whether a header value is a channel identifier: an absolute path without anything that means
something else in an identifier. -/
def isCid (value : Bytes) : Bool :=
  value.length ≤ maxCidLength && 1 < value.length && value.head? == some 0x2f && value.all isCidByte

/-- The channel identifier in the value of the header for it. -/
def channelId (value : Option Bytes) : Except ChannelError String :=
  match value with
  | none => .error (.malformedMessage 2 "missing VAU-CID in handshake")
  | some value =>
    if isCid value then .ok (Http.asciiText value)
    else .error (.malformedMessage 2 "invalid VAU-CID in handshake")

/-! ## Transport encryption left to a proxy -/

/-- `http` in place of `https` on the standard port; any other port is refused. -/
def downgrade (uri : Uri) : Except ClientError Uri :=
  match uri with
  | .absolute .https authority target =>
    if authority.port?.any (· ≠ 443) then
      .error (.transport s!"cannot downgrade {uri.text}: only port 443 is supported")
    else
      match Authority.ofText authority.host with
      | .ok host => .ok (.absolute .http host target)
      | .error fault => .error (.transport fault.message)
  | uri => .ok uri

end SealedTunnel
