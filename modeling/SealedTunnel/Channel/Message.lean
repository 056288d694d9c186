import SealedTunnel.Cbor.Record
import SealedTunnel.Channel.Key

/-!
# Handshake messages

The four messages of the handshake, the signed keys inside them, and the
message that reports an error. All are CBOR records.

* `Wire` — types with one written form and a reader for it.
* `PublicKeys`, `SignedKeys` — the responder's key material.
* `Message1` … `Message4`, `Message3Inner`, `ErrorMessage`.
* `decodeMessage` — a message of the expected type.
-/

namespace SealedTunnel

/-- Types that travel as CBOR. -/
class Wire (α : Type) where
  /-- the reader of a value -/
  read : Cbor.Reader α
  /-- the written form of a value -/
  write : α → Bytes

/-- The value that a byte string encodes. -/
def Wire.decode {α : Type} [Wire α] (b : Bytes) : Except Cbor.Fault α := Cbor.decode Wire.read b

open Cbor (Fields writeRecord writeText writeBytes writeNatural writeBoolean)
open Cbor.Reader (text bytes boolean natural uint64 optional)

/-- A field that has to be there. -/
def required {α : Type} {αs : List Type} (name : String) (read : Cbor.Reader α) (rest : Fields αs) :
    Fields (α :: αs) := .cons name none none read rest

/-- A field that has a value without being there. -/
def defaulted {α : Type} {αs : List Type} (name : String) (value : α) (read : Cbor.Reader α)
    (rest : Fields αs) : Fields (α :: αs) := .cons name (some value) (some value) read rest

/-! ## Key material -/

instance : Wire CurvePoint where
  read := (required "crv" text <| required "x" bytes <| required "y" bytes .nil).read.map
    fun (curve, x, y, ()) => { curve, x, y }
  write k := writeRecord [("crv", writeText k.curve), ("x", writeBytes k.x), ("y", writeBytes k.y)]

/-- The public keys of a responder and how long they hold. -/
structure PublicKeys where
  /-- when they were issued, in seconds since the epoch -/
  issued : UInt64
  /-- until when they hold -/
  expiry : UInt64
  /-- free text -/
  comment : String
  /-- the key for key agreement -/
  point : CurvePoint
  /-- the encapsulation key -/
  kyber : Bytes
  deriving DecidableEq, Repr

instance : Wire PublicKeys where
  read := (required "iat" uint64 <| required "exp" uint64 <| required "comment" text <|
      required "ECDH_PK" Wire.read <| required "Kyber768_PK" bytes .nil).read.map
    fun (issued, expiry, comment, point, kyber, ()) => { issued, expiry, comment, point, kyber }
  write k := writeRecord [
    ("iat", writeNatural k.issued.toNat), ("exp", writeNatural k.expiry.toNat),
    ("comment", writeText k.comment), ("ECDH_PK", Wire.write k.point),
    ("Kyber768_PK", writeBytes k.kyber)]

/-- A responder's public keys with what is needed to trust them. -/
structure SignedKeys where
  /-- the written form of the public keys -/
  payload : Bytes
  /-- the signature over it, `r ‖ s` -/
  signature : Bytes
  /-- the hash of the certificate whose key signed -/
  certHash : Bytes
  /-- the version of the certificate data -/
  version : UInt64
  /-- the revocation status of the certificate -/
  ocsp : Bytes
  deriving DecidableEq, Repr

instance : Wire SignedKeys where
  read := (required "signed_pub_keys" bytes <| required "signature-ES256" bytes <|
      required "cert_hash" bytes <| required "cdv" uint64 <|
      defaulted "ocsp_response" [] bytes .nil).read.map
    fun (payload, signature, certHash, version, ocsp, ()) =>
      { payload, signature, certHash, version, ocsp }
  write k := writeRecord [
    ("signed_pub_keys", writeBytes k.payload), ("signature-ES256", writeBytes k.signature),
    ("cert_hash", writeBytes k.certHash), ("cdv", writeNatural k.version.toNat),
    ("ocsp_response", writeBytes k.ocsp)]

/-- The public keys that were signed. Only for key material that has been validated. -/
def SignedKeys.publicKeys (signed : SignedKeys) : Except ChannelError PublicKeys :=
  match Wire.decode signed.payload with
  | .ok keys => .ok keys
  | .error fault => .error (.malformedMessage 2 s!"signed_pub_keys: {fault.message}")

/-! ## The messages -/

/-- The initiator's public keys. -/
structure Message1 where
  /-- the message's type, `M1` -/
  messageType : String
  /-- the key for key agreement -/
  point : CurvePoint
  /-- the encapsulation key -/
  kyber : Bytes
  deriving DecidableEq, Repr

instance : Wire Message1 where
  read := (required "MessageType" text <| required "ECDH_PK" Wire.read <|
      required "Kyber768_PK" bytes .nil).read.map
    fun (messageType, point, kyber, ()) => { messageType, point, kyber }
  write m := writeRecord [
    ("MessageType", writeText m.messageType), ("ECDH_PK", Wire.write m.point),
    ("Kyber768_PK", writeBytes m.kyber)]

/-- The first encapsulation and the responder's signed keys, encrypted. -/
structure Message2 where
  /-- the message's type, `M2` -/
  messageType : String
  /-- the responder's ephemeral public key -/
  point : CurvePoint
  /-- the encapsulated secret -/
  ciphertext : Bytes
  /-- the signed keys, encrypted -/
  sealedKeys : Bytes
  deriving DecidableEq, Repr

instance : Wire Message2 where
  read := (required "MessageType" text <| required "ECDH_ct" Wire.read <|
      required "Kyber768_ct" bytes <| required "AEAD_ct" bytes .nil).read.map
    fun (messageType, point, ciphertext, sealedKeys, ()) =>
      { messageType, point, ciphertext, sealedKeys }
  write m := writeRecord [
    ("MessageType", writeText m.messageType), ("ECDH_ct", Wire.write m.point),
    ("Kyber768_ct", writeBytes m.ciphertext), ("AEAD_ct", writeBytes m.sealedKeys)]

/-- The second encapsulation and the initiator's confirmation, both encrypted. -/
structure Message3 where
  /-- the message's type, `M3` -/
  messageType : String
  /-- the inner layer, encrypted -/
  sealedInner : Bytes
  /-- the hash of the handshake so far, encrypted -/
  confirmation : Bytes
  deriving DecidableEq, Repr

instance : Wire Message3 where
  read := (required "MessageType" text <| required "AEAD_ct" bytes <|
      required "AEAD_ct_key_confirmation" bytes .nil).read.map
    fun (messageType, sealedInner, confirmation, ()) => { messageType, sealedInner, confirmation }
  write m := writeRecord [
    ("MessageType", writeText m.messageType), ("AEAD_ct", writeBytes m.sealedInner),
    ("AEAD_ct_key_confirmation", writeBytes m.confirmation)]

/-- What message 3 carries encrypted: the second encapsulation and two options. -/
structure Message3Inner where
  /-- the initiator's ephemeral public key -/
  point : CurvePoint
  /-- the encapsulated secret -/
  ciphertext : Bytes
  /-- an option that is not supported -/
  erp : Bool
  /-- another one -/
  eso : Bool
  deriving DecidableEq, Repr

instance : Wire Message3Inner where
  read := (required "ECDH_ct" Wire.read <| required "Kyber768_ct" bytes <|
      required "ERP" boolean <| required "ESO" boolean .nil).read.map
    fun (point, ciphertext, erp, eso, ()) => { point, ciphertext, erp, eso }
  write m := writeRecord [
    ("ECDH_ct", Wire.write m.point), ("Kyber768_ct", writeBytes m.ciphertext),
    ("ERP", writeBoolean m.erp), ("ESO", writeBoolean m.eso)]

/-- The responder's confirmation. -/
structure Message4 where
  /-- the message's type, `M4` -/
  messageType : String
  /-- the hash of the whole handshake, encrypted -/
  confirmation : Bytes
  deriving DecidableEq, Repr

instance : Wire Message4 where
  read := (required "MessageType" text <|
      required "AEAD_ct_key_confirmation" bytes .nil).read.map
    fun (messageType, confirmation, ()) => { messageType, confirmation }
  write m := writeRecord [
    ("MessageType", writeText m.messageType),
    ("AEAD_ct_key_confirmation", writeBytes m.confirmation)]

/-- A report that the handshake failed. -/
structure ErrorMessage where
  /-- the message's type, `Error` -/
  messageType : String
  /-- which error -/
  code : Nat
  /-- what happened -/
  message : String
  deriving DecidableEq, Repr

instance : Wire ErrorMessage where
  read := (required "MessageType" text <| required "ErrorCode" (natural (2 ^ 32)) <|
      required "ErrorMessage" text .nil).read.map
    fun (messageType, code, message, ()) => { messageType, code, message }
  write m := writeRecord [
    ("MessageType", writeText m.messageType), ("ErrorCode", writeNatural m.code),
    ("ErrorMessage", writeText m.message)]

/-- The message that reports an error to the peer. -/
def ChannelError.report (e : ChannelError) : Bytes :=
  Wire.write { messageType := "Error", code := e.code, message := e.message : ErrorMessage }

/-! ## Decoding a message -/

/-- The type a message claims, if it is a record that has one. -/
def messageTypeOf (b : Bytes) : Except Cbor.Fault (Option String) :=
  let fields := Fields.cons "MessageType" (some none) none (optional text) .nil
  Cbor.decode (fields.read.map Prod.fst) b

/-- Decode handshake message `number`, which has to claim the expected type. A peer may send an
error report instead. -/
def decodeMessage {α : Type} [Wire α] (expected : String) (number : Nat) (b : Bytes) :
    Except ChannelError α :=
  let malformed := fun reason => Except.error (ChannelError.malformedMessage number reason)
  match messageTypeOf b with
  | .error fault => malformed s!"invalid CBOR: {fault.message}"
  | .ok none => malformed "missing MessageType"
  | .ok (some found) =>
    if found = expected then
      match Wire.decode b with
      | .ok message => .ok message
      | .error fault => malformed fault.message
    else if found = "Error" then
      match (Wire.decode b : Except Cbor.Fault ErrorMessage) with
      | .ok e => malformed s!"peer reported error {e.code}: {e.message}"
      | .error fault => malformed s!"invalid error message: {fault.message}"
    else malformed s!"unexpected MessageType '{found}', expected '{expected}'"

end SealedTunnel
