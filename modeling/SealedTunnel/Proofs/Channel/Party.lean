import SealedTunnel.Proofs.Channel.Frames
import SealedTunnel.Proofs.Channel.Primitives

/-!
# Parties

A session together with its history, so that one can say what it sealed and
accepted, and in which order.

* `Sealed` — a frame that was sealed, and what had been accepted by then.
* `Party`, with `Party.start`, `Party.encrypt`, `Party.decrypt`; `Party.Action`, `Party.run` — any
  sequence of them.
* `Party.Sequenced` — the order of the counters, which does not depend on the primitives.
* `Party.Orderly` — the invariant: counters tell how much was sealed and accepted.
* `Party.Orderly.run` — it holds whatever the party is asked to do.
-/

namespace SealedTunnel

/-- Encryption succeeds with a key of the right size, if the primitives serve. -/
theorem Frame.exists_encrypt {ρ : Type} {S : Suite ρ} {limit : Nat} (hserves : S.Serves limit)
    {key : Bytes} (hkey : key.length = 32) (keyId : Bytes) (environment : Environment)
    (direction : Direction) (counter : UInt64) (salt : Vector UInt8 4) {plain : Bytes}
    (hplain : plain.length < limit) :
    ∃ f, Frame.encrypt S key keyId environment direction counter salt plain = .ok f := by
  obtain ⟨ciphertext, hsealed⟩ :=
    hserves.encrypts key (ivOf salt counter).toList _ plain hkey Vector.length_toList hplain
  exact ⟨_, bind_eq_ok.mpr ⟨ciphertext, Suite.encrypt_eq_ok.mpr hsealed, rfl⟩⟩

/-- A frame that was sealed. -/
structure Sealed where
  /-- the frame -/
  frame : Frame
  /-- its payload -/
  plain : Bytes
  /-- the payloads that the party had accepted by then -/
  accepted : List Bytes
  deriving DecidableEq, Repr

/-- The frame is one that this end of a channel makes of the payload. -/
def Sealed.MadeBy {ρ : Type} (S : Suite ρ) (session : Session) (s : Sealed) : Prop :=
  session.sealKey.length = 32 ∧ ∃ salt, Frame.encrypt S session.sealKey session.keyId
    session.environment session.role.outgoing s.frame.counter salt s.plain = .ok s.frame

/-- What is in a frame besides its payload. -/
theorem Sealed.MadeBy.frame_eq {ρ : Type} {S : Suite ρ} {session : Session} {s : Sealed}
    (h : s.MadeBy S session) : ∃ salt, s.frame = {
      version := Frame.currentVersion, environment := session.environment.byte
      direction := session.role.outgoing.byte, counter := s.frame.counter, keyId := session.keyId
      iv := Frame.ivOf salt s.frame.counter, ciphertext := s.frame.ciphertext } := by
  obtain ⟨-, salt, hframe⟩ := h
  exact ⟨salt, (Frame.encrypt_eq_ok.mp hframe).2⟩

theorem Sealed.MadeBy.direction_eq {ρ : Type} {S : Suite ρ} {session : Session} {s : Sealed}
    (h : s.MadeBy S session) : s.frame.direction = session.role.outgoing.byte := by
  obtain ⟨salt, hframe⟩ := h.frame_eq
  rw [hframe]

theorem Sealed.MadeBy.keyId_eq {ρ : Type} {S : Suite ρ} {session : Session} {s : Sealed}
    (h : s.MadeBy S session) : s.frame.keyId = session.keyId := by
  obtain ⟨salt, hframe⟩ := h.frame_eq
  rw [hframe]

theorem Sealed.MadeBy.encrypt?_eq {ρ : Type} {S : Suite ρ} {session : Session} {s : Sealed}
    (h : s.MadeBy S session) :
    S.encrypt? session.sealKey s.frame.iv.toList s.frame.header s.plain =
      some s.frame.ciphertext := by
  obtain ⟨-, salt, hframe⟩ := h
  exact (Frame.encrypt_eq_ok.mp hframe).1

/-- What one end seals the other one opens: they have opposite roles and the same keys. -/
structure Session.Feeds (sender receiver : Session) : Prop where
  /-- opposite roles -/
  role : receiver.role = sender.role.peer
  /-- one environment -/
  environment : receiver.environment = sender.environment
  /-- one name for the keys, of the size it has in frames -/
  keyId : receiver.keyId = sender.keyId ∧ sender.keyId.length = 32
  /-- one key -/
  key : receiver.openKey = sender.sealKey

theorem Sealed.MadeBy.length_ciphertext {ρ : Type} {S : Suite ρ} (htagged : S.Tagged)
    {session : Session} {s : Sealed} (h : s.MadeBy S session) :
    s.frame.ciphertext.length = s.plain.length + tagSize :=
  htagged _ _ _ _ _ h.1 s.frame.iv.length_toList h.encrypt?_eq

/-- The frame of a payload that is not empty is read back. -/
theorem Sealed.MadeBy.parse_eq {ρ : Type} {S : Suite ρ} (htagged : S.Tagged) {session : Session}
    {s : Sealed} (h : s.MadeBy S session) (hkeyId : session.keyId.length = 32)
    (hplain : s.plain ≠ []) : Frame.parse s.frame.toBytes = .ok s.frame := by
  have hlength := h.length_ciphertext htagged
  have hpos := List.length_pos_iff.mpr hplain
  exact Frame.parse_toBytes (h.keyId_eq ▸ hkeyId) (by omega)

/-- What opens under the key of the session, and is carried by the same bytes, is its payload. -/
theorem Sealed.MadeBy.plain_eq {ρ : Type} {S : Suite ρ} (hinverts : S.Inverts) {session : Session}
    {s : Sealed} (h : s.MadeBy S session) {frame : Frame} {plain : Bytes}
    (hheader : s.frame.header = frame.header) (hiv : s.frame.iv = frame.iv)
    (hciphertext : s.frame.ciphertext = frame.ciphertext)
    (hopened : S.decrypt? session.sealKey frame.iv.toList frame.header frame.ciphertext =
      some plain) : s.plain = plain := by
  rw [← hheader, ← hiv, ← hciphertext,
    hinverts _ _ _ _ _ h.1 s.frame.iv.length_toList h.encrypt?_eq] at hopened
  exact Option.some.inj hopened

/-- It is accepted when its turn comes. -/
theorem Sealed.MadeBy.decrypt_eq {ρ : Type} {S : Suite ρ} (hinverts : S.Inverts)
    (htagged : S.Tagged) {sender receiver : Session} {s : Sealed} (h : s.MadeBy S sender)
    (hfeeds : sender.Feeds receiver) (hplain : s.plain ≠ [])
    (hlast : receiver.received ≠ Session.lastCounter)
    (hnext : s.frame.counter = receiver.received + 1)
    (hsent : receiver.role = .initiator → s.frame.counter ≤ receiver.sent) :
    Draw.Yields (Session.decrypt S s.frame.toBytes) receiver s.plain
      { receiver with received := s.frame.counter } := by
  obtain ⟨hrole, henvironment, ⟨hkeyId, hkeyIdLength⟩, hopen⟩ := hfeeds
  have hparse := h.parse_eq htagged hkeyIdLength hplain
  have hlength := h.length_ciphertext htagged
  obtain ⟨salt, hframe⟩ := h.frame_eq
  have hopened : s.frame.decrypt S receiver.openKey receiver.keyId receiver.environment
      receiver.role.incoming = .ok s.plain := by
    refine Frame.decrypt_eq_ok.mpr ⟨?_, ?_, ?_, ?_, ?_, ?_⟩
    · rw [hframe]
    · rw [hframe, henvironment]
    · rw [h.direction_eq, hrole, ← Role.outgoing_peer, Role.peer_peer]
    · rw [hkeyId, h.keyId_eq]
    · omega
    · rw [hopen]
      exact hinverts _ _ _ _ _ h.1 s.frame.iv.length_toList h.encrypt?_eq
  exact Session.yields_decrypt.mpr
    ⟨s.frame, hparse, hlast, hnext, hsent, hopen ▸ h.1, hopened, rfl⟩

/-- Keys to try things with. -/
def SessionKeys.sample : SessionKeys where
  confirmToResponder := List.replicate 32 1
  requests := List.replicate 32 2
  confirmToInitiator := List.replicate 32 3
  responses := List.replicate 32 4
  keyId := List.replicate 32 5

/-- One end of a channel and its history. -/
structure Party where
  /-- the session as it is now -/
  session : Session
  /-- all frames it sealed, oldest first -/
  sealed : List Sealed
  /-- all payloads it accepted, oldest first -/
  accepted : List Bytes
  deriving DecidableEq, Repr

namespace Party

variable {ρ : Type} (S : Suite ρ)

/-! ## What a party does -/

/-- A party before its first frame. -/
def start (role : Role) (environment : Environment) (keys : SessionKeys) : Party where
  session := Session.start role environment keys
  sealed := []
  accepted := []

/-- Seal a payload, with random bytes from the generator state `g`. -/
def encrypt (p : Party) (g : ρ) (plain : Bytes) : Party :=
  match (Session.encrypt S plain).run (p.session, g) with
  | (.ok frame, session, _) =>
    { p with session, sealed := p.sealed ++ [{ frame, plain, accepted := p.accepted }] }
  | (.error _, session, _) => { p with session }

/-- Take a byte string for the next frame. -/
def decrypt (p : Party) (wire : Bytes) : Party :=
  match (Session.decrypt S wire).run p.session with
  | (.ok plain, session) => { p with session, accepted := p.accepted ++ [plain] }
  | (.error _, session) => { p with session }

/-- What a party may be asked to do. -/
inductive Action (ρ : Type) where
  /-- seal a payload -/
  | encrypt (g : ρ) (plain : Bytes)
  /-- take a byte string for the next frame -/
  | decrypt (wire : Bytes)

/-- Do one thing. -/
def step (p : Party) : Action ρ → Party
  | .encrypt g plain => p.encrypt S g plain
  | .decrypt wire => p.decrypt S wire

/-- Do one thing after the other. -/
def run (p : Party) (actions : List (Action ρ)) : Party := actions.foldl (step S) p

variable {S} {p : Party}

/-! ## What can come of it -/

/-- A frame that a session seals is made with its keys, under its next counter. -/
theorem madeBy_of_yields {session session' : Session} {g g' : ρ} {plain : Bytes} {frame : Frame}
    (h : Draw.Yields (Session.encrypt S plain) (session, g) frame (session', g'))
    (accepted : List Bytes) :
    ({ frame, plain, accepted } : Sealed).MadeBy S session ∧
      session.nextOutgoing = .ok frame.counter ∧
      session' = { session with sent := frame.counter } := by
  obtain ⟨counter, salt, hcounter, -, -, hkey, rfl, hmade⟩ := Session.yields_encrypt.mp h
  obtain ⟨-, hframe⟩ := Frame.encrypt_eq_ok.mp hmade
  obtain rfl : frame.counter = counter := congrArg Frame.counter hframe
  exact ⟨⟨hkey, salt, hmade⟩, hcounter, rfl⟩

/-- Sealing fails without a trace, or adds a frame under the session's next counter. -/
theorem encrypt_cases (p : Party) (g : ρ) (plain : Bytes) :
    p.encrypt S g plain = p ∨
      ∃ s : Sealed, s.MadeBy S p.session ∧ p.session.nextOutgoing = .ok s.frame.counter ∧
        s.plain = plain ∧ s.accepted = p.accepted ∧ p.encrypt S g plain = {
          session := { p.session with sent := s.frame.counter }
          sealed := p.sealed ++ [s]
          accepted := p.accepted } := by
  simp only [encrypt]
  rcases hresult : (Session.encrypt S plain).run (p.session, g) with ⟨e | frame, session, g'⟩
  · obtain rfl : session = p.session := (Session.spares_encrypt S plain).eq hresult
    exact .inl rfl
  · obtain ⟨hmade, hcounter, rfl⟩ := madeBy_of_yields (.of_run hresult) p.accepted
    exact .inr ⟨_, hmade, hcounter, rfl, rfl, rfl⟩

/-- Sealing succeeds as long as there is a next counter, the key has the right size, and the
primitives serve. -/
theorem yields_encrypt {limit : Nat} (hserves : S.Serves limit) {session : Session}
    {counter : UInt64} (hcounter : session.nextOutgoing = .ok counter)
    (hkey : session.sealKey.length = 32) (g : ρ) {plain : Bytes} (hplain : plain.length < limit)
    (accepted : List Bytes) :
    ∃ s : Sealed, s.MadeBy S session ∧ s.frame.counter = counter ∧ s.plain = plain ∧
      s.accepted = accepted ∧
      Draw.Yields (Session.encrypt S plain) (session, g) s.frame
        ({ session with sent := counter }, (S.draw 4 g).2) := by
  obtain ⟨frame, hmade⟩ := Frame.exists_encrypt hserves hkey session.keyId session.environment
    session.role.outgoing counter (S.draw 4 g).1 hplain
  have hyields : Draw.Yields (Session.encrypt S plain) (session, g) frame
      ({ session with sent := counter }, (S.draw 4 g).2) := Session.yields_encrypt.mpr
    ⟨counter, (S.draw 4 g).1, hcounter, hserves.unpoisoned g, rfl, hkey, rfl, hmade⟩
  obtain ⟨hmadeBy, hnext, -⟩ := madeBy_of_yields hyields accepted
  obtain rfl := Except.ok.inj (hnext.symm.trans hcounter)
  exact ⟨{ frame, plain, accepted }, hmadeBy, rfl, rfl, rfl, hyields⟩

theorem encrypt_eq {limit : Nat} (hserves : S.Serves limit) {counter : UInt64}
    (hcounter : p.session.nextOutgoing = .ok counter) (hkey : p.session.sealKey.length = 32) (g : ρ)
    {plain : Bytes} (hlength : plain.length < limit) :
    ∃ s : Sealed, s.MadeBy S p.session ∧ s.frame.counter = counter ∧ s.plain = plain ∧
      p.encrypt S g plain = {
        session := { p.session with sent := counter }
        sealed := p.sealed ++ [s]
        accepted := p.accepted } := by
  obtain ⟨s, hmade, hscounter, hplain, haccepted, hyields⟩ :=
    yields_encrypt hserves hcounter hkey g hlength p.accepted
  refine ⟨s, hmade, hscounter, hplain, ?_⟩
  simp only [encrypt]
  rw [hyields.run_eq, ← hplain, ← haccepted]

/-- A byte string is refused without a trace, or it is the next frame in sequence and opens. -/
theorem decrypt_cases (p : Party) (wire : Bytes) :
    p.decrypt S wire = p ∨
      ∃ frame plain, Frame.parse wire = .ok frame ∧ p.session.received ≠ Session.lastCounter ∧
        frame.counter = p.session.received + 1 ∧
        (p.session.role = .initiator → frame.counter ≤ p.session.sent) ∧
        frame.decrypt S p.session.openKey p.session.keyId p.session.environment
          p.session.role.incoming = .ok plain ∧
        p.decrypt S wire = {
          session := { p.session with received := frame.counter }
          sealed := p.sealed
          accepted := p.accepted ++ [plain] } := by
  simp only [decrypt]
  rcases hresult : (Session.decrypt S wire).run p.session with ⟨e | plain, session⟩
  · obtain rfl : session = p.session := (Session.spares_decrypt S wire).eq hresult
    exact .inl rfl
  · obtain ⟨frame, hparse, hlast, hnext, hsent, -, hopened, rfl⟩ :=
      Session.yields_decrypt.mp (.of_run hresult)
    exact .inr ⟨frame, plain, hparse, hlast, hnext, hsent, hopened, rfl⟩

/-- Sealing accepts nothing. -/
theorem accepted_encrypt (p : Party) (g : ρ) (plain : Bytes) :
    (p.encrypt S g plain).accepted = p.accepted := by
  rcases encrypt_cases (S := S) p g plain with heq | ⟨_, -, -, -, -, heq⟩ <;> rw [heq]

/-- Nothing that was sealed is forgotten. -/
theorem sealed_prefix_encrypt (p : Party) (g : ρ) (plain : Bytes) :
    p.sealed <+: (p.encrypt S g plain).sealed := by
  rcases encrypt_cases (S := S) p g plain with heq | ⟨_, -, -, -, -, heq⟩
  · have hsealed : (p.encrypt S g plain).sealed = p.sealed := congrArg Party.sealed heq
    exact hsealed ▸ List.prefix_refl _
  · rw [heq]
    exact List.prefix_append _ _

/-- Accepting seals nothing. -/
theorem sealed_decrypt (p : Party) (wire : Bytes) : (p.decrypt S wire).sealed = p.sealed := by
  rcases decrypt_cases (S := S) p wire with heq | ⟨_, _, -, -, -, -, -, heq⟩ <;> rw [heq]

/-! ## The order of counters -/

/-- The counters of a party's frames go up, and an answer never comes before its request. -/
structure Sequenced (p : Party) : Prop where
  /-- the counters of the frames go up -/
  increasing : p.sealed.Pairwise fun s s' => s.frame.counter < s'.frame.counter
  /-- up to the last one sent -/
  bounded : ∀ s ∈ p.sealed, s.frame.counter ≤ p.session.sent
  /-- a frame's counter is in its IV -/
  iv : ∀ s ∈ p.sealed, ∃ salt, s.frame.iv = Frame.ivOf salt s.frame.counter
  /-- an initiator accepts no answer before it asks -/
  behind : p.session.role = .initiator → p.session.received ≤ p.session.sent
  /-- a responder answers no request before it comes -/
  ahead : p.session.role = .responder → p.session.sent ≤ p.session.received

theorem start_sequenced (role : Role) (environment : Environment) (keys : SessionKeys) :
    Sequenced (start role environment keys) where
  increasing := .nil
  bounded := fun _ hs => nomatch hs
  iv := fun _ hs => nomatch hs
  behind := fun _ => UInt64.le_refl _
  ahead := fun _ => UInt64.le_refl _

theorem Sequenced.encrypt (hp : Sequenced p) (S : Suite ρ) (g : ρ) (plain : Bytes) :
    Sequenced (p.encrypt S g plain) := by
  rcases encrypt_cases (S := S) p g plain with heq | ⟨new, hmade, hcounter, -, -, heq⟩
  · rwa [heq]
  rw [heq]
  -- the new frame has a greater counter than all frames before it
  have hsent := Session.sent_lt hcounter
  have hnext := Session.nextOutgoing_eq_ok.mp hcounter
  constructor
  case increasing =>
    refine List.pairwise_append.mpr ⟨hp.increasing, List.pairwise_singleton _ _, ?_⟩
    intro s hs s' hs'
    obtain rfl := List.mem_singleton.mp hs'
    exact UInt64.lt_of_le_of_lt (hp.bounded s hs) hsent
  case bounded =>
    intro s hs
    rcases List.mem_append.mp hs with hs | hs
    · exact UInt64.le_of_lt (UInt64.lt_of_le_of_lt (hp.bounded s hs) hsent)
    · obtain rfl := List.mem_singleton.mp hs
      exact UInt64.le_refl _
  case iv =>
    intro s hs
    rcases List.mem_append.mp hs with hs | hs
    · exact hp.iv s hs
    · obtain rfl := List.mem_singleton.mp hs
      obtain ⟨salt, hframe⟩ := hmade.frame_eq
      exact ⟨salt, congrArg Frame.iv hframe⟩
  case behind =>
    intro hrole
    exact UInt64.le_of_lt (UInt64.lt_of_le_of_lt (hp.behind hrole) hsent)
  case ahead =>
    intro hrole
    -- the responder's counter is that of the last request it accepted
    rcases hnext with ⟨hinitiator, -⟩ | ⟨-, -, hanswered⟩
    · exact nomatch hrole.symm.trans hinitiator
    · exact UInt64.le_of_eq hanswered

theorem Sequenced.decrypt (hp : Sequenced p) (S : Suite ρ) (wire : Bytes) :
    Sequenced (p.decrypt S wire) := by
  rcases decrypt_cases (S := S) p wire with heq | ⟨frame, plain, -, hlast, hnext, hsent, -, heq⟩
  · rwa [heq]
  rw [heq]
  constructor
  case increasing => exact hp.increasing
  case bounded => exact hp.bounded
  case iv => exact hp.iv
  case behind => exact hsent
  case ahead =>
    intro hrole
    refine UInt64.le_trans (hp.ahead hrole) ?_
    show p.session.received ≤ frame.counter
    rw [hnext, UInt64.le_iff_toNat_le, Session.toNat_add_one hlast]
    exact Nat.le_succ _

theorem Sequenced.step (hp : Sequenced p) (S : Suite ρ) (action : Action ρ) :
    Sequenced (p.step S action) := by
  cases action with
  | encrypt g plain => exact hp.encrypt S g plain
  | decrypt wire => exact hp.decrypt S wire

/-- A counter is in one IV at most. -/
theorem Sequenced.iv_ne (hp : Sequenced p) :
    p.sealed.Pairwise fun s s' => s.frame.iv ≠ s'.frame.iv := by
  refine hp.increasing.imp_of_mem fun {s s'} hs hs' hlt hiv => ?_
  obtain ⟨salt, hsalt⟩ := hp.iv s hs
  obtain ⟨salt', hsalt'⟩ := hp.iv s' hs'
  have hcounter := Frame.ivOf_injective (hsalt.symm.trans (hiv.trans hsalt'))
  exact UInt64.ne_of_lt hlt hcounter

/-! ## The invariant -/

/-- The history of a party fits its counters. -/
structure Orderly (S : Suite ρ) (p : Party) : Prop where
  /-- every frame was made with the session's keys -/
  made : ∀ s ∈ p.sealed, s.MadeBy S p.session
  /-- the counters of the frames go up -/
  increasing : p.sealed.Pairwise fun s s' => s.frame.counter < s'.frame.counter
  /-- up to the last one sent -/
  bounded : ∀ s ∈ p.sealed, s.frame.counter ≤ p.session.sent
  /-- the last counter accepted is the number of payloads accepted -/
  received : p.session.received.toNat = p.accepted.length
  /-- what had been accepted when a frame was sealed is still there -/
  seen : ∀ s ∈ p.sealed, s.accepted <+: p.accepted
  /-- an initiator numbers its frames from 1 on, without gaps -/
  counted : p.session.role = .initiator →
    p.sealed.map (·.frame.counter.toNat) = List.range' 1 p.session.sent.toNat
  /-- an initiator accepts no answer before it asks -/
  behind : p.session.role = .initiator → p.session.received ≤ p.session.sent
  /-- a responder numbers a frame by the requests accepted so far -/
  answered : p.session.role = .responder → ∀ s ∈ p.sealed,
    s.frame.counter.toNat = s.accepted.length
  /-- a responder answers no request before it comes -/
  ahead : p.session.role = .responder → p.session.sent ≤ p.session.received

theorem start_orderly (role : Role) (environment : Environment) (keys : SessionKeys) :
    Orderly S (start role environment keys) where
  made := fun _ hs => nomatch hs
  increasing := .nil
  bounded := fun _ hs => nomatch hs
  received := rfl
  seen := fun _ hs => nomatch hs
  counted := fun _ => rfl
  behind := fun _ => UInt64.le_refl _
  answered := fun _ _ hs => nomatch hs
  ahead := fun _ => UInt64.le_refl _

theorem Orderly.sequenced (ho : Orderly S p) : Sequenced p where
  increasing := ho.increasing
  bounded := ho.bounded
  iv := by
    intro s hs
    obtain ⟨salt, hframe⟩ := (ho.made s hs).frame_eq
    exact ⟨salt, congrArg Frame.iv hframe⟩
  behind := ho.behind
  ahead := ho.ahead

theorem Orderly.encrypt (ho : Orderly S p) (g : ρ) (plain : Bytes) :
    Orderly S (p.encrypt S g plain) := by
  have hsequenced := ho.sequenced.encrypt S g plain
  rcases encrypt_cases (S := S) p g plain with heq | ⟨new, hmade, hcounter, -, haccepted, heq⟩
  · rwa [heq]
  rw [heq] at hsequenced ⊢
  have hnext := Session.nextOutgoing_eq_ok.mp hcounter
  constructor
  case made =>
    intro s hs
    rcases List.mem_append.mp hs with hs | hs
    · exact ho.made s hs
    · obtain rfl := List.mem_singleton.mp hs
      exact hmade
  case increasing => exact hsequenced.increasing
  case bounded => exact hsequenced.bounded
  case received => exact ho.received
  case seen =>
    intro s hs
    rcases List.mem_append.mp hs with hs | hs
    · exact ho.seen s hs
    · obtain rfl := List.mem_singleton.mp hs
      exact haccepted ▸ List.prefix_refl _
  case counted =>
    intro hrole
    -- only the initiator's frames are numbered without gaps
    rcases hnext with ⟨-, hlast, hnext⟩ | ⟨hresponder, -⟩
    · rw [List.map_append, ho.counted hrole]
      show _ ++ [new.frame.counter.toNat] = List.range' 1 new.frame.counter.toNat
      rw [hnext, Session.toNat_add_one hlast, List.range'_1_concat, Nat.add_comm 1]
    · exact nomatch hrole.symm.trans hresponder
  case behind => exact hsequenced.behind
  case answered =>
    intro hrole s hs
    rcases List.mem_append.mp hs with hs | hs
    · exact ho.answered hrole s hs
    · obtain rfl := List.mem_singleton.mp hs
      -- the responder's counter is that of the last request it accepted
      rcases hnext with ⟨hinitiator, -⟩ | ⟨-, -, hanswered⟩
      · exact nomatch hrole.symm.trans hinitiator
      · rw [hanswered, haccepted, ho.received]
  case ahead => exact hsequenced.ahead

theorem Orderly.decrypt (ho : Orderly S p) (wire : Bytes) : Orderly S (p.decrypt S wire) := by
  have hsequenced := ho.sequenced.decrypt S wire
  rcases decrypt_cases (S := S) p wire with
    heq | ⟨frame, plain, hparse, hlast, hnext, hsent, hopened, heq⟩
  · rwa [heq]
  rw [heq] at hsequenced ⊢
  constructor
  case made => exact ho.made
  case increasing => exact hsequenced.increasing
  case bounded => exact hsequenced.bounded
  case received =>
    show frame.counter.toNat = _
    rw [hnext, Session.toNat_add_one hlast, ho.received, List.length_append, List.length_singleton]
  case seen =>
    intro s hs
    exact (ho.seen s hs).trans (List.prefix_append _ _)
  case counted => exact ho.counted
  case behind => exact hsequenced.behind
  case answered => exact ho.answered
  case ahead => exact hsequenced.ahead

theorem Orderly.step (ho : Orderly S p) (action : Action ρ) : Orderly S (p.step S action) := by
  cases action with
  | encrypt g plain => exact ho.encrypt g plain
  | decrypt wire => exact ho.decrypt wire

/-- Whatever a party is asked to do, its history fits its counters. -/
theorem Orderly.run (ho : Orderly S p) (actions : List (Action ρ)) :
    Orderly S (p.run S actions) := by
  induction actions generalizing p with
  | nil => exact ho
  | cons action actions ih => exact ih (ho.step action)

/-! ## What never changes -/

/-- Role, environment and keys stay as they are. -/
theorem reset_step (p : Party) (action : Action ρ) :
    (p.step S action).session.reset = p.session.reset := by
  cases action with
  | encrypt g plain =>
    rcases encrypt_cases (S := S) p g plain with heq | ⟨_, -, -, -, -, heq⟩
    · rw [step, heq]
    · rw [step, heq]
      rfl
  | decrypt wire =>
    rcases decrypt_cases (S := S) p wire with heq | ⟨_, _, -, -, -, -, -, heq⟩
    · rw [step, heq]
    · rw [step, heq]
      rfl

/-! ## Looking a frame up -/

/-- The only element of an increasing list with this value is the one that has it. -/
theorem filter_eq_singleton {α : Type} (f : α → Nat) {l : List α} {a : α}
    (h : l.Pairwise fun a b => f a < f b) (ha : a ∈ l) : l.filter (fun b => f b = f a) = [a] := by
  induction h with
  | nil => exact nomatch ha
  | @cons b l hb _ ih =>
    rcases List.mem_cons.mp ha with rfl | hmem
    · rw [List.filter_cons_of_pos (by simp)]
      congr 1
      refine List.filter_eq_nil_iff.mpr fun c hc => ?_
      have hlt := hb c hc
      simp only [decide_eq_true_eq]
      omega
    · have hlt := hb a hmem
      rw [List.filter_cons_of_neg (by simp only [decide_eq_true_eq]; omega)]
      exact ih hmem

/-- A responder sealed one frame at most after so many requests. -/
theorem Orderly.filter_eq (ho : Orderly S p) (hrole : p.session.role = .responder) {s : Sealed}
    (hs : s ∈ p.sealed) :
    p.sealed.filter (fun s' => s'.accepted.length = s.accepted.length) = [s] := by
  refine filter_eq_singleton (fun s => s.accepted.length) ?_ hs
  refine ho.increasing.imp_of_mem fun ha hb hlt => ?_
  rw [← ho.answered hrole _ ha, ← ho.answered hrole _ hb]
  exact UInt64.lt_iff_toNat_lt.mp hlt

/-- An initiator's frame stands in its history where its counter says. -/
theorem Orderly.getElem?_eq (ho : Orderly S p) (hrole : p.session.role = .initiator) {s : Sealed}
    (hs : s ∈ p.sealed) : p.sealed[s.frame.counter.toNat - 1]? = some s ∧
      0 < s.frame.counter.toNat := by
  obtain ⟨i, hi, rfl⟩ := List.mem_iff_getElem.mp hs
  have hcounter : (p.sealed.map (·.frame.counter.toNat))[i]? = some (i + 1) := by
    rw [ho.counted hrole]
    have hlength := congrArg List.length (ho.counted hrole)
    rw [List.length_map, List.length_range'] at hlength
    rw [List.getElem?_range' (by omega), Nat.add_comm]
    simp
  rw [List.getElem?_map, List.getElem?_eq_getElem hi] at hcounter
  have hvalue : p.sealed[i].frame.counter.toNat = i + 1 := Option.some.inj hcounter
  rw [hvalue, Nat.add_sub_cancel]
  exact ⟨List.getElem?_eq_getElem hi, Nat.succ_pos i⟩

end Party

end SealedTunnel
