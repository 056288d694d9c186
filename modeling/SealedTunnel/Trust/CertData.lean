import SealedTunnel.Channel.Message
import SealedTunnel.Client.Endpoint
import SealedTunnel.Outer.Message
import SealedTunnel.Trust.Consult

/-!
# Certificate data

The certificates that a host publishes for its signed keys.

* `CertData` — the certificate that signed, its issuer, and the chain from there to a root.
* `CertData.request`, `CertData.ofReply` — how they are fetched. Whatever goes wrong on the way, the
  certificates are unavailable.
-/

namespace SealedTunnel

/-- The certificates published for signed keys. -/
structure CertData where
  /-- the certificate whose key signed -/
  cert : Bytes
  /-- the certificate that issued it -/
  ca : Bytes
  /-- the certificates from there to a root -/
  chain : List Bytes
  deriving DecidableEq, Repr

namespace CertData

open Cbor.Reader (bytes listOf)

/-- The reader of certificate data. -/
def read : Cbor.Reader CertData :=
  (required "cert" bytes <| required "ca" bytes <|
    defaulted "rca_chain" [] (listOf bytes) .nil).read.map
    fun (cert, ca, chain, ()) => { cert, ca, chain }

/-- The request for the certificates that go with signed keys. -/
def request (endpoint : Uri) (certHash : Bytes) (version : UInt64) :
    Except ChannelError Outer.Request := do
  return Outer.get (← certDataUri endpoint certHash version) Outer.cborType

/-- The certificates in the answer to a request for them. -/
def ofReply (request : Outer.Request) (reply : Outer.Reply) : Except ChannelError CertData :=
  match request.success reply with
  | .error e => .error (.certificateUnavailable e.message)
  | .ok response =>
    match Cbor.decode read response.body with
    | .ok data => .ok data
    | .error fault =>
      .error (.certificateUnavailable s!"decode {request.uri.text}: {fault.message}")

end CertData

end SealedTunnel
