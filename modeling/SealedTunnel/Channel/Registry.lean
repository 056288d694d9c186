import SealedTunnel.Channel.Responder

/-!
# The registry of channels

A responder's bookkeeping: which channel identifiers are in a handshake and
which have a session.

* `Registry` — the channels by identifier; `Registry.cidOf` makes an identifier.
* `Registry.begin`, `Registry.finish`, `Registry.establish` — the life of a channel.
* `Registry.withSession` — use a session; one past its end is dropped.
-/

namespace SealedTunnel

/-- Where a channel stands. -/
inductive Channel where
  /-- between message 2 and message 3 -/
  | handshaking (handshake : Handshake)
  /-- with a session -/
  | established (session : TimedSession)
  deriving DecidableEq, Repr

/-- The channels of a responder by identifier, at most one for each. -/
structure Registry where
  /-- the entries -/
  entries : List (String × Channel)
  deriving DecidableEq, Repr

namespace Registry

/-- What every channel identifier starts with. -/
def cidStart : String := "/VAU/"

/-- The channel identifier made from random bytes: a random UUID. -/
def cidOf (random : Vector UInt8 16) : String :=
  let b := (random.set 6 (random[6] &&& 0x0f ||| 0x40)).set 8 (random[8] &&& 0x3f ||| 0x80)
  let part := fun start size => Bytes.hex ((b.toList.drop start).take size)
  cidStart ++ "-".intercalate [part 0 4, part 4 2, part 6 2, part 8 2, part 10 6]

/-- No channels. -/
def empty : Registry := ⟨[]⟩

/-- The channel with an identifier. -/
def find? (r : Registry) (cid : String) : Option Channel := r.entries.lookup cid

/-- Forget a channel. -/
def erase (r : Registry) (cid : String) : Registry := ⟨r.entries.filter (·.1 ≠ cid)⟩

/-- Put a channel in place of whatever has its identifier. -/
def insert (r : Registry) (cid : String) (channel : Channel) : Registry :=
  ⟨(cid, channel) :: (r.erase cid).entries⟩

/-- Keep a handshake under a fresh identifier. -/
def begin (r : Registry) (cid : String) (handshake : Handshake) : Registry :=
  r.insert cid (.handshaking handshake)

/-- Take a channel out, if there is one. -/
def remove (r : Registry) (cid : String) : Option Channel × Registry := (r.find? cid, r.erase cid)

/-- Take a handshake out. A channel with a session is put back. -/
def finish (r : Registry) (cid : String) : Except ChannelError Handshake × Registry :=
  match r.remove cid with
  | (some (.handshaking handshake), r) => (.ok handshake, r)
  | (some established, r) => (.error .unknownCid, r.insert cid established)
  | (none, r) => (.error .unknownCid, r)

/-- Keep a session. -/
def establish (r : Registry) (cid : String) (session : TimedSession) : Registry :=
  r.insert cid (.established session)

/-- Use the session of a channel, which is kept as `use` leaves it, whatever `use` answers. A
session past its end is dropped and reported as unknown. -/
def withSession {β : Type} (r : Registry) (cid : String) (now : UInt64)
    (use : Session → β × Session) : Except ChannelError β × Registry :=
  match r.find? cid with
  | some (.established timed) =>
    if now < timed.expires then
      let (answer, session) := use timed.session
      (.ok answer, r.insert cid (.established { timed with session }))
    else (.error .unknownCid, r.erase cid)
  | _ => (.error .unknownCid, r)

end Registry

end SealedTunnel
