import SealedTunnel.Bytes
import SealedTunnel.Cbor.Head
import SealedTunnel.Cbor.Reader
import SealedTunnel.Cbor.Record
import SealedTunnel.Channel.Describe
import SealedTunnel.Channel.Encapsulation
import SealedTunnel.Channel.Envelope
import SealedTunnel.Channel.Error
import SealedTunnel.Channel.Frame
import SealedTunnel.Channel.Initiator
import SealedTunnel.Channel.Key
import SealedTunnel.Channel.KeySchedule
import SealedTunnel.Channel.Message
import SealedTunnel.Channel.Registry
import SealedTunnel.Channel.Responder
import SealedTunnel.Channel.Session
import SealedTunnel.Client.Endpoint
import SealedTunnel.Client.Error
import SealedTunnel.Client.Establishment
import SealedTunnel.Client.Pool
import SealedTunnel.Client.Turn
import SealedTunnel.Crypto.Aes
import SealedTunnel.Crypto.ChaCha
import SealedTunnel.Crypto.Keccak
import SealedTunnel.Crypto.Kyber
import SealedTunnel.Crypto.P256
import SealedTunnel.Crypto.Sha2
import SealedTunnel.Der.Element
import SealedTunnel.Der.Indefinite
import SealedTunnel.Der.Oid
import SealedTunnel.Der.Time
import SealedTunnel.Der.Value
import SealedTunnel.Http.Head
import SealedTunnel.Http.Message
import SealedTunnel.Outer.Host
import SealedTunnel.Outer.Location
import SealedTunnel.Outer.Message
import SealedTunnel.Outer.Reply
import SealedTunnel.Outer.Transport
import SealedTunnel.Server.Gateway
import SealedTunnel.Setup.Fault
import SealedTunnel.Setup.Settings
import SealedTunnel.Suite
import SealedTunnel.Text.Blank
import SealedTunnel.Text.Decimal
import SealedTunnel.Text.Span
import SealedTunnel.Trust.Admission
import SealedTunnel.Trust.CertData
import SealedTunnel.Trust.Consult
import SealedTunnel.Trust.Ocsp
import SealedTunnel.Trust.Signer
import SealedTunnel.Trust.Store
import SealedTunnel.Trust.X509
import SealedTunnel.Uri.Basic
import SealedTunnel.Uri.Parse
import SealedTunnel.Proofs.Cbor.Locality
import SealedTunnel.Proofs.Cbor.Names
import SealedTunnel.Proofs.Cbor.RoundTrip
import SealedTunnel.Proofs.Cbor.Skipping
import SealedTunnel.Proofs.Cbor.View
import SealedTunnel.Proofs.Channel.Agreement
import SealedTunnel.Proofs.Channel.Completion
import SealedTunnel.Proofs.Channel.Conversation
import SealedTunnel.Proofs.Channel.Counters
import SealedTunnel.Proofs.Channel.Draw
import SealedTunnel.Proofs.Channel.Frames
import SealedTunnel.Proofs.Channel.Lives
import SealedTunnel.Proofs.Channel.MessageTypes
import SealedTunnel.Proofs.Channel.Party
import SealedTunnel.Proofs.Channel.Primitives
import SealedTunnel.Proofs.Channel.Steps
import SealedTunnel.Proofs.Channel.Wire
import SealedTunnel.Proofs.Checks
import SealedTunnel.Proofs.Client.Answers
import SealedTunnel.Proofs.Client.Destinations
import SealedTunnel.Proofs.Client.Handshake
import SealedTunnel.Proofs.Client.Lines
import SealedTunnel.Proofs.Client.Locations
import SealedTunnel.Proofs.Client.PoolRun
import SealedTunnel.Proofs.Client.Requests
import SealedTunnel.Proofs.Client.Slots
import SealedTunnel.Proofs.Client.Flight
import SealedTunnel.Proofs.Crypto.Gcm
import SealedTunnel.Proofs.Crypto.Sizes
import SealedTunnel.Proofs.Der.Elements
import SealedTunnel.Proofs.Trust.Dialogue
import SealedTunnel.Proofs.Trust.Status
import SealedTunnel.Proofs.Trust.Conditions
import SealedTunnel.Proofs.Trust.Issuer
import SealedTunnel.Proofs.Trust.GoodAnswer
import SealedTunnel.Proofs.Uri.RoundTrip
import SealedTunnel.Proofs.Client.Eviction
import SealedTunnel.Proofs.Channel.Corruption
import SealedTunnel.Proofs.Channel.Link
import SealedTunnel.Proofs.Client.Removal
import SealedTunnel.Proofs.Client.Succession
import SealedTunnel.Proofs.Http.Lines
import SealedTunnel.Proofs.Http.Requests
import SealedTunnel.Proofs.Http.Responses
import SealedTunnel.Proofs.Channel.Faults
import SealedTunnel.Proofs.Client.Retrying
import SealedTunnel.Proofs.Http.Bodies
import SealedTunnel.Proofs.Http.Acceptance
import SealedTunnel.Proofs.Client.Identities
import SealedTunnel.Proofs.Der.Writing
import SealedTunnel.Proofs.Trust.Professions
import SealedTunnel.Proofs.Channel.Derivation
import SealedTunnel.Proofs.Channel.Delivery
import SealedTunnel.Proofs.Trust.Signatures
import SealedTunnel.Proofs.Client.Keys
import SealedTunnel.Proofs.Channel.Layout
import SealedTunnel.Proofs.Der.Grammar
import SealedTunnel.Proofs.Trust.Splitting
import SealedTunnel.Proofs.Uri.Hosts
import SealedTunnel.Proofs.Client.Downgrade
import SealedTunnel.Proofs.Channel.Exhaustion
