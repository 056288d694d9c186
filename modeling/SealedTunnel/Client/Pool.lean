import SealedTunnel.Client.Establishment
import SealedTunnel.Client.Turn

/-!
# The pool of channels

Many tasks share channels: one channel for each host and subject. The pool is a
machine that moves one task by one step, so that tasks may interleave in any
way; a task in an outer exchange waits until a reply is delivered to it.

* `Slot` — the place of a channel. The first task that wants it does the handshake; the others wait
  for their turn, and start over if the slot is gone by then.
* `Line` — an established channel. Its session belongs to one task at a time, from the encryption of
  a request until its response is decrypted.
* `Phase`, `Task` — where a task stands.
* `Pool.submit`, `Pool.advance`, `Pool.deliver`, `Pool.cancel` — a task enters, takes a step, gets a
  reply, or is given up.

A channel that fails is evicted, so that the next task starts over with a handshake.
-/

namespace SealedTunnel

/-! ## What is shared -/

/-- Which channel a task wants: the root of a host, and a subject. -/
abbrev Key : Type := String × String

/-- The place of a channel. -/
structure Slot where
  /-- who may do the handshake -/
  turn : Turn
  /-- the line that came out of it -/
  line : Option Nat
  deriving DecidableEq, Repr

/-- An established channel. -/
structure Line where
  /-- where it is -/
  connection : Connection
  /-- this end of it -/
  session : Session
  /-- whose session it is -/
  turn : Turn
  deriving DecidableEq, Repr

/-! ## Tasks -/

/-- What a task is for. -/
inductive Errand where
  /-- a channel -/
  | connect
  /-- the answer to a request -/
  | call (request : Http.Request)
  deriving DecidableEq, Repr

/-- What a task ends with. -/
inductive Outcome where
  /-- a channel -/
  | line (index : Nat)
  /-- an answer -/
  | response (response : Http.Response)
  deriving DecidableEq, Repr

/-- Where a task stands. -/
inductive Phase where
  /-- it looks for the slot of its key -/
  | seeking
  /-- it waits for its turn in a slot, or for the line there -/
  | queued (slot : Nat)
  /-- it waits for a reply in a handshake -/
  | establishing (slot : Nat) (establishment : Establishment)
  /-- its handshake failed, and the slot is not gone yet -/
  | failing (slot : Nat) (error : ClientError)
  /-- it has a line -/
  | connected (line : Nat)
  /-- it waits for its turn to send a written request -/
  | ready (line : Nat) (plain : Bytes)
  /-- it waits for the reply to a frame -/
  | exchanging (line : Nat) (frame : Frame)
  /-- its exchange failed, and the line is not evicted yet -/
  | evicting (line : Nat) (error : ClientError)
  /-- it is over -/
  | finished (result : Except ClientError Outcome)
  /-- it was given up -/
  | cancelled

/-- One caller of the pool. -/
structure Task where
  /-- which channel it wants -/
  key : Key
  /-- what for -/
  errand : Errand
  /-- where it stands -/
  phase : Phase

/-- The channels of a client and the tasks that use them. -/
structure Pool (ρ : Type) where
  /-- the generator that all handshakes and frames draw from -/
  generator : ρ
  /-- the slots in use, by key -/
  entries : List (Key × Nat)
  /-- all slots there ever were -/
  slots : List Slot
  /-- all lines there ever were -/
  lines : List Line
  /-- all tasks there ever were -/
  tasks : List Task

namespace Pool

variable {ρ τ : Type}

/-- No channels and no tasks. -/
def empty (generator : ρ) : Pool ρ := ⟨generator, [], [], [], []⟩

/-- The number of slots in use, handshakes in flight included. -/
def size (p : Pool ρ) : Nat := p.entries.length

/-! ## Small changes -/

/-- Move a task to another phase. -/
def setPhase (p : Pool ρ) (task : Nat) (phase : Phase) : Pool ρ :=
  { p with tasks := p.tasks.modify task fun t => { t with phase } }

/-- Change a slot. -/
def updateSlot (p : Pool ρ) (slot : Nat) (f : Slot → Slot) : Pool ρ :=
  { p with slots := p.slots.modify slot f }

/-- Change a line. -/
def updateLine (p : Pool ρ) (line : Nat) (f : Line → Line) : Pool ρ :=
  { p with lines := p.lines.modify line f }

/-- Change whose turn it is in a slot. -/
def turnSlot (p : Pool ρ) (slot : Nat) (f : Turn → Turn) : Pool ρ :=
  p.updateSlot slot fun s => { s with turn := f s.turn }

/-- Change whose turn it is on a line. -/
def turnLine (p : Pool ρ) (line : Nat) (f : Turn → Turn) : Pool ρ :=
  p.updateLine line fun l => { l with turn := f l.turn }

/-- Free a key, if its slot is the one given. -/
def dropSlot (p : Pool ρ) (key : Key) (slot : Nat) : Pool ρ :=
  { p with entries := p.entries.filter fun (k, s) => ¬ (k = key ∧ s = slot) }

/-- The line in a slot. -/
def lineOf? (p : Pool ρ) (slot : Nat) : Option Nat := p.slots[slot]? >>= Slot.line

/-- Free a key, if its slot holds the line given. -/
def evict (p : Pool ρ) (key : Key) (line : Nat) : Pool ρ :=
  { p with entries := p.entries.filter fun (k, s) => ¬ (k = key ∧ p.lineOf? s = some line) }

/-! ## Tasks come and go -/

/-- A new task. An endpoint that is none ends it at once. -/
def submit (p : Pool ρ) (endpoint subject : String) (errand : Errand) : Pool ρ :=
  let task : Task := match destination endpoint with
    | .ok uri => { key := (uri.text, subject), errand, phase := .seeking }
    | .error e => { key := (endpoint, subject), errand, phase := .finished (.error e) }
  { p with tasks := p.tasks ++ [task] }

/-- Give a task up. What it holds goes to the next in line. -/
def cancel (p : Pool ρ) (task : Nat) : Pool ρ :=
  match p.tasks[task]? with
  | none => p
  | some t =>
    match t.phase with
    | .queued slot | .establishing slot _ | .failing slot _ =>
      (p.turnSlot slot (·.leave task)).setPhase task .cancelled
    | .ready line _ | .exchanging line _ =>
      (p.turnLine line (·.leave task)).setPhase task .cancelled
    | .finished _ => p
    | _ => p.setPhase task .cancelled

/-! ## Steps -/

/-- Take the slot of the key, a new one if there is none. -/
def seek (p : Pool ρ) (task : Nat) (key : Key) : Pool ρ :=
  match p.entries.lookup key with
  | some slot =>
    match p.lineOf? slot with
    | some line => p.setPhase task (.connected line)
    | none => (p.turnSlot slot (·.ask task)).setPhase task (.queued slot)
  | none =>
    let slot := p.slots.length
    let p : Pool ρ := { p with
      entries := p.entries ++ [(key, slot)]
      slots := p.slots ++ [{ turn := Turn.free.ask task, line := none }] }
    p.setPhase task (.queued slot)

/-- Do the handshake of a slot. A slot that is gone by now is left to the next task, which will find
the same. -/
def begin (S : Suite ρ) (client : Client τ) (p : Pool ρ) (task : Nat) (key : Key) (slot : Nat) :
    Pool ρ :=
  if p.entries.lookup key = some slot then
    let (result, generator) := (Establishment.start S client.environment key.1).run p.generator
    let p : Pool ρ := { p with generator }
    match result with
    | .ok establishment => p.setPhase task (.establishing slot establishment)
    | .error e => p.setPhase task (.failing slot e)
  else (p.turnSlot slot Turn.release).setPhase task .seeking

/-- Go on with a line. -/
def useLine (client : Client τ) (p : Pool ρ) (task : Nat) (errand : Errand) (line : Nat) : Pool ρ :=
  match errand with
  | .connect => p.setPhase task (.finished (.ok (.line line)))
  | .call request =>
    match (request.withUserAgent client.userAgent).encode with
    | .error fault => p.setPhase task (.finished (.error (.codec fault)))
    | .ok plain => (p.turnLine line (·.ask task)).setPhase task (.ready line plain)

/-- Encrypt a written request. -/
def send (S : Suite ρ) (p : Pool ρ) (task : Nat) (line : Nat) (session : Session) (plain : Bytes) :
    Pool ρ :=
  let (result, session, generator) := (Session.encrypt S plain).run (session, p.generator)
  let p : Pool ρ := { p with generator }.updateLine line fun l => { l with session }
  match result with
  | .ok frame => p.setPhase task (.exchanging line frame)
  | .error e => (p.turnLine line Turn.release).setPhase task (.evicting line (.channel e))

/-- Take one step of a task, if there is one to take without a reply or somebody else's step. -/
def advance (S : Suite ρ) (client : Client τ) (p : Pool ρ) (task : Nat) : Option (Pool ρ) := do
  let t ← p.tasks[task]?
  match t.phase with
  | .seeking => return p.seek task t.key
  | .queued slot =>
    let s ← p.slots[slot]?
    match s.line with
    | some line => return p.setPhase task (.connected line)
    | none => if s.turn.holder = some task then return begin S client p task t.key slot else none
  | .failing slot e =>
    return ((p.dropSlot t.key slot).turnSlot slot Turn.release).setPhase task (.finished (.error e))
  | .connected line => return useLine client p task t.errand line
  | .ready line plain =>
    let l ← p.lines[line]?
    if l.turn.holder = some task then return send S p task line l.session plain else none
  | .evicting line e =>
    let l ← p.lines[line]?
    return (p.evict (l.connection.endpoint.text, t.key.2) line).setPhase task (.finished (.error e))
  | _ => none

/-! ## Replies -/

/-- The request that posts a frame. -/
def frameRequest (connection : Connection) (frame : Frame) : Outer.Request :=
  Outer.post connection.uri Outer.frameType "*/*" frame.toBytes

/-- The request that a task waits for a reply to. -/
def pending? (p : Pool ρ) (task : Nat) : Option Outer.Request := do
  let t ← p.tasks[task]?
  match t.phase with
  | .establishing _ establishment => return establishment.request
  | .exchanging line frame => return frameRequest (← p.lines[line]?).connection frame
  | _ => none

/-- Put a new line into a slot. All who wait there will find it. -/
def settle (p : Pool ρ) (task slot : Nat) (connection : Connection) (session : Session) : Pool ρ :=
  let line := p.lines.length
  let p : Pool ρ := { p with lines := p.lines ++ [{ connection, session, turn := .free }] }
  (p.updateSlot slot fun _ => { turn := .free, line := some line }).setPhase task (.connected line)

/-- Decrypt and read a response. One that cannot be read leaves the channel in step. -/
def receive (S : Suite ρ) (p : Pool ρ) (task line : Nat) (session : Session)
    (request : Outer.Request) (reply : Outer.Reply) : Pool ρ :=
  let released := p.turnLine line Turn.release
  match request.success reply with
  | .error e => released.setPhase task (.evicting line e)
  | .ok response =>
    let (result, session) := (Session.decrypt S response.body).run session
    let released := released.updateLine line fun l => { l with session }
    match result with
    | .error e => released.setPhase task (.evicting line (.channel e))
    | .ok plain =>
      let result := match Http.Response.decode plain with
        | .ok response => .ok (.response response)
        | .error fault => .error (.codec fault)
      released.setPhase task (.finished result)

/-- Deliver the reply that a task waits for. -/
def deliver (S : Suite ρ) (client : Client τ) (now : UInt64) (p : Pool ρ) (task : Nat)
    (reply : Outer.Reply) : Consult (Pool ρ) :=
  match p.tasks[task]? with
  | none => return p
  | some t =>
    match t.phase with
    | .establishing slot establishment => do
      let (result, generator) ←
        (Establishment.resume S client.policy now establishment reply).run.run p.generator
      let p : Pool ρ := { p with generator }
      match result with
      | .ok (.waiting next) => return p.setPhase task (.establishing slot next)
      | .ok (.established connection session) => return p.settle task slot connection session
      | .error e => return p.setPhase task (.failing slot e)
    | .exchanging line frame =>
      match p.lines[line]? with
      | none => return p
      | some l => return p.receive S task line l.session (frameRequest l.connection frame) reply
    | _ => return p

end Pool

end SealedTunnel
