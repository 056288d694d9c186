import SealedTunnel.Channel.Envelope
import SealedTunnel.Channel.Key

/-!
# Frames

What travels through an established channel: version, environment, direction,
counter and key identifier in the clear, then an IV and the encrypted payload.
The clear part is authenticated with the payload.

* `Role`, `Direction` — the two ends and the two ways.
* `Frame` — a frame, with `Frame.toBytes` and `Frame.parse`.
* `Frame.encrypt`, `Frame.decrypt` — to and from the payload.
-/

namespace SealedTunnel

/-- The way a frame travels. -/
inductive Direction where
  /-- from initiator to responder -/
  | request
  /-- from responder to initiator -/
  | response
  deriving DecidableEq, Repr

/-- The byte that stands for a direction in a frame. -/
def Direction.byte : Direction → UInt8
  | .request => 1
  | .response => 2

/-- The two ends of a channel. -/
inductive Role where
  /-- the end that started the handshake and sends requests -/
  | initiator
  /-- the end that answers -/
  | responder
  deriving DecidableEq, Repr

namespace Role

/-- The way the frames of this end travel. -/
def outgoing : Role → Direction
  | initiator => .request
  | responder => .response

/-- The way the frames to this end travel. -/
def incoming : Role → Direction
  | initiator => .response
  | responder => .request

/-- The other end. -/
def peer : Role → Role
  | initiator => responder
  | responder => initiator

end Role

/-- One frame of an established channel. -/
structure Frame where
  /-- the protocol version -/
  version : UInt8
  /-- the environment's byte -/
  environment : UInt8
  /-- the direction's byte -/
  direction : UInt8
  /-- which exchange the frame belongs to -/
  counter : UInt64
  /-- the name of the session's keys -/
  keyId : Bytes
  /-- the IV of the payload -/
  iv : Vector UInt8 12
  /-- the encrypted payload and its tag -/
  ciphertext : Bytes
  deriving DecidableEq, Repr

namespace Frame

/-- The version of the protocol. -/
def currentVersion : UInt8 := 2

/-- The size of a header with a key identifier of 32 bytes. -/
def headerSize : Nat := 43

/-- The size of the smallest frame: header, IV, one byte and a tag. -/
def minSize : Nat := headerSize + ivSize + tagSize + 1

/-- The part in the clear, which the payload is authenticated with. -/
def header (f : Frame) : Bytes :=
  [f.version, f.environment, f.direction] ++ Bytes.ofUInt64 f.counter ++ f.keyId

/-- The frame as it travels. -/
def toBytes (f : Frame) : Bytes := f.header ++ f.iv.toList ++ f.ciphertext

/-- The frame in a byte string. -/
def parse (b : Bytes) : Except ChannelError Frame :=
  match b with
  | version :: environment :: direction :: rest =>
    if rest.length + 3 < minSize then
      .error (.malformedFrame s!"frame too short: {rest.length + 3} bytes")
    else do
      let counter ← exactly "counter" 8 (rest.take 8)
      let iv ← exactly "iv" 12 ((rest.drop 40).take 12)
      return {
        version, environment, direction
        counter := Bytes.toUInt64 counter.toList
        keyId := (rest.drop 8).take 32
        iv, ciphertext := rest.drop 52 }
  | _ => .error (.malformedFrame s!"frame too short: {b.length} bytes")

variable {ρ : Type} (S : Suite ρ)

/-- The IV of a frame: four random bytes, then the counter. -/
def ivOf (salt : Vector UInt8 4) (counter : UInt64) : Vector UInt8 12 :=
  salt ++ (⟨(Bytes.ofUInt64 counter).toArray, by simp⟩ : Vector UInt8 8)

/-- The frame that carries a payload. -/
def encrypt (key keyId : Bytes) (environment : Environment) (direction : Direction)
    (counter : UInt64) (salt : Vector UInt8 4) (plain : Bytes) : Except ChannelError Frame := do
  let empty : Frame := {
    version := currentVersion, environment := environment.byte, direction := direction.byte,
    counter, keyId, iv := ivOf salt counter, ciphertext := [] }
  let ciphertext ← S.encrypt key empty.iv.toList empty.header plain
  return { empty with ciphertext }

/-- The payload of a frame, after a check of everything in the clear but the counter. -/
def decrypt (key keyId : Bytes) (environment : Environment) (direction : Direction) (f : Frame) :
    Except ChannelError Bytes :=
  if f.version ≠ currentVersion then .error (.malformedFrame s!"unsupported version {f.version}")
  else if f.environment ≠ environment.byte then
    .error (.malformedFrame
      s!"PU flag mismatch: expected {environment.byte}, got {f.environment}")
  else if f.direction ≠ direction.byte then
    .error (.malformedFrame
      s!"direction mismatch: expected {direction.byte}, got {f.direction}")
  else if f.keyId ≠ keyId then .error .keyIdMismatch
  else if f.ciphertext.length < tagSize then .error (.malformedFrame "ciphertext too short")
  else do
    let split := f.ciphertext.length - tagSize
    let tag ← exactly "tag" tagSize (f.ciphertext.drop split)
    match S.decrypt? key f.iv.toList f.header (f.ciphertext.take split ++ tag.toList) with
    | some plain => .ok plain
    | none => .error (.authentication "application data")

end Frame

end SealedTunnel
