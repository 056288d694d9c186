import SealedTunnel.Channel.Error
import SealedTunnel.Http.Message
import SealedTunnel.Setup.Fault

/-!
# Errors of a client

* `ClientError` — everything that a tunnelled call can fail with.
* `ClientError.message` — the text shown for it.
* `ClientError.isRetryable` — whether the outer network is to blame, so that trying again on a fresh
  channel makes sense.
-/

namespace SealedTunnel

/-- What a tunnelled call can fail with. -/
inductive ClientError where
  /-- the channel failed -/
  | channel (error : ChannelError)
  /-- an outer exchange broke down -/
  | exchange (reason : String)
  /-- an outer exchange could not be made -/
  | transport (reason : String)
  /-- an outer exchange was answered with a status other than 200 -/
  | status (method uri : String) (code : Nat)
  /-- a tunnelled message cannot be written or read -/
  | codec (fault : Http.Fault)
  /-- the client is not set up -/
  | setup (fault : SetupFault)
  deriving DecidableEq, Repr

namespace ClientError

/-- The text shown for an error. -/
def message : ClientError → String
  | channel error => s!"vau: {error.message}"
  | exchange reason | transport reason => s!"outer transport: {reason}"
  | status method uri code => s!"outer transport: {method} {uri} returned status {code}"
  | codec fault => s!"http codec: {fault.message}"
  | setup fault => s!"configuration: {fault.message}"

/-- Whether trying again on a fresh channel makes sense. -/
def isRetryable : ClientError → Bool
  | exchange _ | transport _ | status .. => true
  | channel error => error.isNetwork
  | codec _ | setup _ => false

end ClientError

end SealedTunnel
