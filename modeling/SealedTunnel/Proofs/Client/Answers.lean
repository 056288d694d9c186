import SealedTunnel.Proofs.Channel.Party
import SealedTunnel.Proofs.Client.Lines

/-!
# Which response a call returns

Many calls share the session of a line. The outer network may drop, delay,
replay and swap replies, calls may fail and be given up at any point.

* `World`, `Event`, `World.run` — a pool, and the responder at the other end of one of its lines.
* `World.Genuine`, `World.Authentic` — the assumption on the network: only what the responder sealed
  opens under the key of responses.
* `World.losses` — how many exchanges on the line were lost after their request was sealed.
* `InStep` — the invariant: counters run apart by the number of lost exchanges, and no more.
* `World.returned_response` — which of the responder's answers a call returns. It is the answer to
  the call's own request only as long as no exchange was lost.
-/

namespace SealedTunnel

/-! ## Lost exchanges -/

namespace Pool

variable {ρ : Type}

/-- Whether an exchange on a line is lost between two states of a pool. -/
def loses (p q : Pool ρ) (line : Nat) : Bool := (List.range p.tasks.length).any fun i =>
  (p.exchange? line i).isSome && (q.phase? i).any Phase.isLost

theorem loses_eq_true {p q : Pool ρ} {line : Nat} : p.loses q line = true ↔
    ∃ i frame phase, p.exchange? line i = some frame ∧ q.phase? i = some phase ∧
      phase.isLost = true := by
  simp only [loses]
  simp only [List.any_eq_true, List.mem_range, Bool.and_eq_true, Option.isSome_iff_exists,
    Option.any_eq_true]
  constructor
  · rintro ⟨i, -, ⟨frame, hframe⟩, phase, hphase, hlost⟩
    exact ⟨i, frame, phase, hframe, hphase, hlost⟩
  · rintro ⟨i, frame, phase, hframe, hphase, hlost⟩
    refine ⟨i, Nat.lt_of_not_le fun hge => ?_, ⟨frame, hframe⟩, phase, hphase, hlost⟩
    rw [exchange?, phase?, List.getElem?_eq_none hge] at hframe
    cases hframe

/-- Nothing is lost as long as every task that waits for a reply goes on waiting. -/
theorem loses_eq_false {p q : Pool ρ} {line : Nat}
    (h : ∀ i frame, p.exchange? line i = some frame →
      ∀ phase, q.phase? i = some phase → phase.isLost = false) : p.loses q line = false := by
  rw [← Bool.not_eq_true]
  intro hloses
  obtain ⟨i, frame, phase, hframe, hphase, hlost⟩ := loses_eq_true.mp hloses
  exact nomatch (h i frame hframe phase hphase).symm.trans hlost

/-- A task that waits for a reply has lost nothing. -/
theorem isLost_of_exchange? {p : Pool ρ} {line i : Nat} {frame : Frame}
    (h : p.exchange? line i = some frame) (phase : Phase) (hphase : p.phase? i = some phase) :
    phase.isLost = false := by
  rw [exchange?, hphase] at h
  exact Phase.isLost_of_frame? h

end Pool

/-! ## The invariant -/

/-- The counters of a line differ by the number of exchanges lost on it, and by one more while a
task waits for a reply. -/
structure InStep {ρ : Type} (p : Pool ρ) (line : Nat) (l : Line) (lost : Nat) : Prop where
  /-- a task that waits for a reply has the session, and sent its last frame -/
  waiting : ∀ i frame, p.exchange? line i = some frame → l.turn.holder = some i ∧
    frame.counter = l.session.sent ∧ l.session.sent.toNat = l.session.received.toNat + lost + 1
  /-- if no task does, every frame was answered or lost -/
  idle : (∀ i, p.exchange? line i = none) →
    l.session.sent.toNat = l.session.received.toNat + lost

/-- Only one task waits for a reply on a line. -/
theorem InStep.unique {ρ : Type} {p : Pool ρ} {line : Nat} {l : Line} {lost : Nat}
    (h : InStep p line l lost) {i j : Nat} {frame frame' : Frame}
    (hi : p.exchange? line i = some frame) (hj : p.exchange? line j = some frame') : i = j :=
  Option.some.inj ((h.waiting i frame hi).1.symm.trans (h.waiting j frame' hj).1)

/-- While the task whose turn it is does not wait, no task does. -/
theorem InStep.free {ρ : Type} {p : Pool ρ} {line : Nat} {l : Line} {lost : Nat}
    (h : InStep p line l lost) {i : Nat} (hholder : l.turn.holder = some i)
    (hfree : p.exchange? line i = none) (j : Nat) : p.exchange? line j = none := by
  cases hj : p.exchange? line j with
  | none => rfl
  | some frame =>
    obtain ⟨hholder', -⟩ := h.waiting j frame hj
    obtain rfl := Option.some.inj (hholder.symm.trans hholder')
    exact nomatch hfree.symm.trans hj

/-- After the exchange of the task that waits, no task does. -/
theorem InStep.ended {ρ : Type} {p q : Pool ρ} {line : Nat} {l : Line} {lost : Nat}
    (h : InStep p line l lost) {i : Nat} {frame : Frame} (hframe : p.exchange? line i = some frame)
    (hexchange : ∀ j, q.exchange? line j = if j = i then none else p.exchange? line j) (j : Nat) :
    q.exchange? line j = none := by
  rw [hexchange]
  split
  · rfl
  · rename_i hne
    cases hj : p.exchange? line j with
    | none => rfl
    | some frame' => exact absurd (h.unique hframe hj).symm hne

/-- A move keeps a line in step, and counts what it loses. -/
theorem InStep.change {ρ : Type} {S : Suite ρ} {p q : Pool ρ} {line : Nat} {l : Line} {lost : Nat}
    {m : Pool.Move} (h : InStep p line l lost) (hrole : l.session.role = .initiator)
    (hchange : LineChange S line l p q m) :
    ∃ l', q.lines[line]? = some l' ∧ l'.session.reset = l.session.reset ∧
      InStep q line l' (lost + if p.loses q line then 1 else 0) := by
  cases hchange with
  | @quiet _ turn hl hsame hkeep =>
    have hloses : p.loses q line = false := Pool.loses_eq_false fun i frame hframe =>
      Pool.isLost_of_exchange? ((hsame i).trans hframe)
    refine ⟨_, hl, rfl, ?_, ?_⟩
    · intro i frame hframe
      rw [hsame] at hframe
      obtain ⟨hholder, hcounter, hsent⟩ := h.waiting i frame hframe
      rw [hloses]
      exact ⟨hkeep i frame hframe hholder, hcounter, hsent⟩
    · intro hnone
      rw [hloses]
      exact h.idle fun i => (hsame i).symm.trans (hnone i)
  | @sent i plain frame session g g' hholder hfree hsend hl hexchange =>
    obtain ⟨-, hcounter, rfl⟩ := Party.madeBy_of_yields hsend []
    -- the session was free, so every frame before this one was answered or lost
    have hnone := h.free hholder hfree
    have hloses : p.loses q line = false := Pool.loses_eq_false fun j frame' hframe =>
      nomatch (hnone j).symm.trans hframe
    have hidle := h.idle hnone
    refine ⟨_, hl, rfl, ?_, ?_⟩
    · intro j frame' hframe
      rw [hexchange] at hframe
      rw [hloses]
      rcases Session.nextOutgoing_eq_ok.mp hcounter with ⟨-, hlast, hnext⟩ | ⟨hresponder, -⟩
      · split at hframe
        · rename_i hj
          obtain rfl := Option.some.inj hframe
          refine ⟨hj ▸ hholder, rfl, ?_⟩
          rw [hnext, Session.toNat_add_one hlast, hidle]
          rfl
        · exact nomatch (hnone j).symm.trans hframe
      · exact nomatch hrole.symm.trans hresponder
    · intro hall
      have hi := hall i
      rw [hexchange, if_pos rfl] at hi
      exact nomatch hi
  | @received i frame now reply judge response plain session turn result hframe hreply hdecrypt
      hfinished hresult hl hexchange =>
    obtain ⟨answer, -, hlast, hnext, -, -, -, rfl⟩ := Session.yields_decrypt.mp hdecrypt
    obtain ⟨-, -, hsent⟩ := h.waiting i frame hframe
    have hnone := h.ended hframe hexchange
    have hloses : p.loses q line = false := by
      refine Pool.loses_eq_false fun j frame' hj phase hphase => ?_
      obtain rfl := h.unique hframe hj
      obtain rfl := Option.some.inj (hfinished.symm.trans hphase)
      rfl
    refine ⟨_, hl, rfl, ?_, ?_⟩
    · intro j frame' hj
      exact nomatch (hnone j).symm.trans hj
    · intro _
      rw [hloses]
      show l.session.sent.toNat = answer.counter.toNat + lost
      rw [hnext, Session.toNat_add_one hlast]
      omega
  | @lost _ i frame turn phase hframe hphase hlost hl hexchange =>
    have hloses : p.loses q line = true :=
      Pool.loses_eq_true.mpr ⟨i, frame, phase, hframe, hphase, hlost⟩
    have hnone := h.ended hframe hexchange
    obtain ⟨-, -, hsent⟩ := h.waiting i frame hframe
    refine ⟨_, hl, rfl, ?_, ?_⟩
    · intro j frame' hj
      exact nomatch (hnone j).symm.trans hj
    · intro _
      -- the frame was sealed and is never answered, so the counters drift apart by one
      rw [hloses]
      show l.session.sent.toNat = l.session.received.toNat + (lost + 1)
      omega

/-! ## A pool and a responder -/

/-- A pool, and the responder at the other end of one of its lines. -/
structure World (ρ : Type) where
  /-- the pool -/
  pool : Pool ρ
  /-- the responder -/
  responder : Party

/-- What may happen next. -/
inductive Event (ρ : Type) where
  /-- something happens to the pool -/
  | client (m : Pool.Move)
  /-- the responder is asked to do something -/
  | responder (action : Party.Action ρ)

namespace World

variable {ρ τ : Type} (S : Suite ρ) (client : Client τ) (line : Nat)

/-- The world after an event. -/
def step (w : World ρ) : Event ρ → World ρ
  | .client m => { w with pool := w.pool.step S client m }
  | .responder action => { w with responder := w.responder.step S action }

/-- The world after events in this order. -/
def run (w : World ρ) (events : List (Event ρ)) : World ρ := events.foldl (step S client) w

/-- How many exchanges are lost on the line, after their request was sealed. -/
def losses (w : World ρ) : List (Event ρ) → Nat
  | [] => 0
  | e :: events =>
    (if w.pool.loses (step S client w e).pool line then 1 else 0) +
      losses (step S client w e) events

/-- A reply on the line that opens under a key was sealed by the responder: clear part, IV and
ciphertext are those of a frame in its history. -/
def Genuine (key : Bytes) (w : World ρ) : Event ρ → Prop
  | .client (.deliver i _ (.ok response) _) => ∀ frame answer plain,
    w.pool.exchange? line i = some frame → Frame.parse response.body = .ok answer →
    S.decrypt? key answer.iv.toList answer.header answer.ciphertext = some plain →
    ∃ s ∈ w.responder.sealed, s.frame.header = answer.header ∧ s.frame.iv = answer.iv ∧
      s.frame.ciphertext = answer.ciphertext
  | _ => True

/-- The network forges nothing. -/
def Authentic (key : Bytes) : World ρ → List (Event ρ) → Prop
  | _, [] => True
  | w, e :: events => Genuine S line key w e ∧ Authentic key (step S client w e) events

variable {S client line}

/-- The line was just established with these keys, and the responder as well. -/
structure Established (w : World ρ) (line : Nat) (environment : Environment)
    (keys : SessionKeys) : Prop where
  /-- the line has a fresh session -/
  session : ∃ l, w.pool.lines[line]? = some l ∧
    l.session = Session.start .initiator environment keys
  /-- nobody waits for a reply on it -/
  free : ∀ i, w.pool.exchange? line i = none
  /-- the responder has a fresh session -/
  responder : w.responder = Party.start .responder environment keys

theorem run_append (w : World ρ) (events events' : List (Event ρ)) :
    run S client w (events ++ events') = run S client (run S client w events) events' :=
  List.foldl_append

/-- What stays so after any events. -/
structure Tuned (S : Suite ρ) (w : World ρ) (line : Nat) (environment : Environment)
    (keys : SessionKeys) (lost : Nat) : Prop where
  /-- the line has these keys and is in step -/
  session : ∃ l, w.pool.lines[line]? = some l ∧
    l.session.reset = Session.start .initiator environment keys ∧ InStep w.pool line l lost
  /-- the responder has these keys -/
  responder : w.responder.session.reset = Session.start .responder environment keys
  /-- its history fits its counters -/
  orderly : w.responder.Orderly S

variable {environment : Environment} {keys : SessionKeys} {w : World ρ} {lost : Nat}

theorem Established.tuned (h : Established w line environment keys) :
    Tuned S w line environment keys 0 := by
  obtain ⟨l, hl, hsession⟩ := h.session
  refine ⟨⟨l, hl, by rw [hsession]; rfl, ?_, ?_⟩, by rw [h.responder]; rfl, ?_⟩
  · intro i frame hframe
    exact nomatch (h.free i).symm.trans hframe
  · intro _
    rw [hsession]
    rfl
  · rw [h.responder]
    exact Party.start_orderly _ _ _

theorem Tuned.step (client : Client τ) (h : Tuned S w line environment keys lost) (e : Event ρ) :
    Tuned S (step S client w e) line environment keys
      (lost + if w.pool.loses (World.step S client w e).pool line then 1 else 0) := by
  obtain ⟨⟨l, hl, hreset, hstep⟩, hresponder, horderly⟩ := h
  cases e with
  | client m =>
    have hrole : l.session.role = .initiator := congrArg Session.role hreset
    obtain ⟨l', hl', hreset', hstep'⟩ := hstep.change hrole
      ((Pool.step_transition S client w.pool m).lineChange hl)
    exact ⟨⟨l', hl', hreset'.trans hreset, hstep'⟩, hresponder, horderly⟩
  | responder action =>
    have hloses : w.pool.loses w.pool line = false :=
      Pool.loses_eq_false fun _ _ hframe => Pool.isLost_of_exchange? hframe
    refine ⟨⟨l, hl, hreset, ?_⟩, (Party.reset_step _ action).trans hresponder,
      horderly.step action⟩
    show InStep w.pool line l (lost + if w.pool.loses w.pool line then 1 else 0)
    rw [hloses]
    exact hstep

/-- Whatever happens, the line stays in step but for the exchanges that were lost. -/
theorem Tuned.run (client : Client τ) (h : Tuned S w line environment keys lost)
    (events : List (Event ρ)) : Tuned S (run S client w events) line environment keys
      (lost + losses S client line w events) := by
  induction events generalizing w lost with
  | nil => exact h
  | cons e events ih =>
    have hrest := ih (h.step client e)
    rw [Nat.add_assoc] at hrest
    exact hrest

/-- A task that waited for a reply and returns a response was delivered a frame of the responder,
the one after the last that was accepted on the line. -/
theorem Tuned.returned (hinverts : S.Inverts) (h : Tuned S w line environment keys lost)
    {e : Event ρ} (he : Genuine S line keys.responses w e) {i : Nat} {frame : Frame}
    {response : Http.Response} (hbefore : w.pool.phase? i = some (.exchanging line frame))
    (hafter : (World.step S client w e).pool.phase? i =
      some (.finished (.ok (.response response)))) :
    ∃ s ∈ w.responder.sealed, Http.Response.decode s.plain = .ok response ∧
      s.accepted.length = s.frame.counter.toNat ∧
      s.frame.counter.toNat + lost = frame.counter.toNat := by
  obtain ⟨⟨l, hl, hreset, hstep⟩, hresponder, horderly⟩ := h
  have hframe : w.pool.exchange? line i = some frame := by
    rw [Pool.exchange?, hbefore]
    exact Phase.frame?_exchanging line frame
  have hover : (World.step S client w e).pool.exchange? line i = none := by
    rw [Pool.exchange?, hafter]
    rfl
  cases e with
  | responder action => cases hframe.symm.trans hover
  | client m =>
    have hchange := (Pool.step_transition S client w.pool m).lineChange hl
    cases hchange with
    | quiet _ hsame => cases hframe.symm.trans ((hsame i).symm.trans hover)
    | @sent j _ _ _ _ _ hholder hfree =>
      obtain ⟨hholder', -⟩ := hstep.waiting i frame hframe
      obtain rfl := Option.some.inj (hholder.symm.trans hholder')
      cases hfree.symm.trans hframe
    | lost hj hphase hlost =>
      obtain rfl := hstep.unique hj hframe
      obtain rfl := Option.some.inj (hafter.symm.trans hphase)
      cases hlost
    | @received j _ _ _ _ _ plain _ _ _ hj hreply hdecrypt hfinished hresult =>
      obtain rfl := hstep.unique hj hframe
      obtain rfl := Phase.finished.inj (Option.some.inj (hfinished.symm.trans hafter))
      obtain ⟨answer, hparse, hlast, hnext, -, -, hopened, rfl⟩ :=
        Session.yields_decrypt.mp hdecrypt
      obtain ⟨-, -, -, -, -, hplain⟩ := Frame.decrypt_eq_ok.mp hopened
      have hopenKey : l.session.openKey = keys.responses := congrArg Session.openKey hreset
      have hsealKey : w.responder.session.sealKey = keys.responses :=
        congrArg Session.sealKey hresponder
      have hrole : w.responder.session.role = .responder := congrArg Session.role hresponder
      rw [hopenKey, ← hsealKey] at hplain
      subst hreply
      obtain ⟨s, hs, hheader, hiv, hciphertext⟩ :=
        he frame answer plain hframe hparse (hsealKey ▸ hplain)
      obtain ⟨-, -, -, hcounter, -⟩ := Frame.header_injective hheader
      obtain rfl := (horderly.made s hs).plain_eq hinverts hheader hiv hciphertext hplain
      -- what is accepted is the frame after the last accepted one, whoever asked for it
      obtain ⟨-, hsent, hdifference⟩ := hstep.waiting j frame hframe
      refine ⟨s, hs, hresult response rfl, (horderly.answered hrole s hs).symm, ?_⟩
      rw [hcounter, hnext, Session.toNat_add_one hlast, hsent, hdifference]
      omega

theorem Authentic.append {key : Bytes} {events events' : List (Event ρ)}
    (h : Authentic S client line key w events)
    (h' : Authentic S client line key (run S client w events) events') :
    Authentic S client line key w (events ++ events') := by
  induction events generalizing w with
  | nil => exact h'
  | cons e events ih => exact ⟨h.1, ih h.2 h'⟩

theorem Authentic.last {key : Bytes} {events : List (Event ρ)} {e : Event ρ}
    (h : Authentic S client line key w (events ++ [e])) :
    Genuine S line key (run S client w events) e := by
  induction events generalizing w with
  | nil => exact h.1
  | cons e' events ih => exact ih h.2

/-! ## The response of a call -/

/-- On an established line, however many calls there are, whatever order things happen in and
whatever the outer network does, a call that returns a response returns one that the responder
sealed, under the counter of the call's own request less the number of exchanges lost on the line
before. So it is the answer to this very request as long as no exchange was lost, and the answer to
another one as soon as one was. -/
theorem returned_response (hinverts : S.Inverts) (client : Client τ) {w : World ρ}
    (h : Established w line environment keys) {events : List (Event ρ)} {e : Event ρ}
    (hauthentic : Authentic S client line keys.responses w (events ++ [e])) {i : Nat}
    {frame : Frame} {response : Http.Response}
    (hbefore : (run S client w events).pool.phase? i = some (.exchanging line frame))
    (hafter : (run S client w (events ++ [e])).pool.phase? i =
      some (.finished (.ok (.response response)))) :
    ∃ s ∈ (run S client w events).responder.sealed,
      Http.Response.decode s.plain = .ok response ∧
      s.accepted.length = s.frame.counter.toNat ∧
      s.frame.counter.toNat + losses S client line w events = frame.counter.toNat ∧
      (s.frame.counter = frame.counter ↔ losses S client line w events = 0) := by
  have htuned : Tuned S (run S client w events) line environment keys
      (losses S client line w events) := by
    have hrun := (h.tuned (S := S)).run client events
    rwa [Nat.zero_add] at hrun
  rw [run_append] at hafter
  obtain ⟨s, hs, hdecode, haccepted, hcounter⟩ :=
    htuned.returned hinverts hauthentic.last hbefore hafter
  refine ⟨s, hs, hdecode, haccepted, hcounter, ?_⟩
  rw [← UInt64.toNat_inj]
  omega

/-! ### A schedule with a lost exchange -/

/-- A client to try things with. -/
def sampleClient : Client Unit where
  transport := ()
  policy := .insecure
  environment := .testing
  userAgent := "t/1"

/-- A judge who answers nothing. -/
def silent : Judge := fun _ _ => .error "silent"

/-- A request to try things with. -/
def sampleRequest (path : String) : Http.Request where
  method := .get
  path := path
  headers := []
  body := none

/-- A response to try things with. -/
def sampleAnswer : Bytes := Bytes.ofString "HTTP/1.1 200 OK\r\n\r\n"

theorem decode_sampleAnswer : Http.Response.decode sampleAnswer =
    .ok { status := 200, reason := "OK", headers := [], body := [] } := rfl

/-- A line with two calls on it. -/
def samplePool (g : ρ) (session : Session) (turn : Turn) (first second : Phase) : Pool ρ where
  generator := g
  entries := []
  slots := []
  lines := [{
    connection := {
      endpoint := .absolute .https ⟨"host"⟩ .root, cid := "/1"
      uri := .absolute .https ⟨"host"⟩ ⟨"/1", none⟩ }
    session, turn }]
  tasks := [
    { key := ("https://host/", "X1"), errand := .call (sampleRequest "/first"), phase := first },
    { key := ("https://host/", "X1"), errand := .call (sampleRequest "/second"), phase := second }]

/-- The line was just established. -/
def sample (g : ρ) : World ρ where
  pool := samplePool g (Session.start .initiator .testing .sample) .free (.connected 0)
    (.connected 0)
  responder := Party.start .responder .testing .sample

/-- The bytes of the frame whose reply a task waits for. -/
def wireOf (w : World ρ) (i : Nat) : Bytes := ((w.pool.exchange? 0 i).map Frame.toBytes).getD []

/-- Both calls write their requests, and the first one sends its own. -/
def asked : List (Event ρ) :=
  [.client (.advance 0), .client (.advance 1), .client (.advance 0)]

variable (S) in
/-- The responder answers, but the exchange of the first call fails; the second one sends its
request. -/
def failed (g : ρ) : List (Event ρ) :=
  let w := run S sampleClient (sample g) asked
  asked ++ [.responder (.decrypt (wireOf w 0)),
    .responder (.encrypt g sampleAnswer),
    .client (.deliver 0 0 (.error (.transport "down")) silent),
    .client (.advance 1)]

variable (S) in
/-- The network delivers the answer to the first call as the reply to the second. -/
def replayed (g : ρ) : Event ρ :=
  let w := run S sampleClient (sample g) (failed S g)
  let body := (w.responder.sealed.map (·.frame.toBytes)).flatten
  .client (.deliver 1 0 (.ok { status := 200, headers := [], body }) silent)

/-- A sample request as it is written. -/
def sampleText (path : String) : Bytes := Bytes.ofString
  ("GET " ++ path ++ " HTTP/1.1\r\nuser-agent: t/1\r\nx-useragent: t/1\r\ncontent-length: 0\r\n\r\n")

theorem length_sampleText_lt :
    (sampleText "/first").length < 128 ∧ (sampleText "/second").length < 128 := by decide

theorem length_sampleAnswer_lt : sampleAnswer.length < 128 := by decide

theorem step_written (g : ρ) (session : Session) :
    Pool.step S sampleClient (Pool.step S sampleClient
      (samplePool g session .free (.connected 0) (.connected 0)) (.advance 0)) (.advance 1) =
    samplePool g session ⟨some 0, [1]⟩ (.ready 0 (sampleText "/first"))
      (.ready 0 (sampleText "/second")) := rfl

theorem step_sent_first {g g' : ρ} {session session' : Session} {plain : Bytes} {frame : Frame}
    {turn : Turn} {second : Phase} (hturn : turn.holder = some 0)
    (h : Draw.Yields (Session.encrypt S plain) (session, g) frame (session', g')) :
    Pool.step S sampleClient (samplePool g session turn (.ready 0 plain) second) (.advance 0) =
      samplePool g' session' turn (.exchanging 0 frame) second :=
  Eq.trans (Pool.step_sent rfl rfl rfl hturn h) rfl

theorem step_sent_second {g g' : ρ} {session session' : Session} {plain : Bytes} {frame : Frame}
    {turn : Turn} {first : Phase} (hturn : turn.holder = some 1)
    (h : Draw.Yields (Session.encrypt S plain) (session, g) frame (session', g')) :
    Pool.step S sampleClient (samplePool g session turn first (.ready 0 plain)) (.advance 1) =
      samplePool g' session' turn first (.exchanging 0 frame) :=
  Eq.trans (Pool.step_sent rfl rfl rfl hturn h) rfl

theorem step_received_second {g : ρ} {session session' : Session} {plain body : Bytes}
    {frame : Frame} {turn : Turn} {first : Phase} {now : UInt64} {judge : Judge}
    {answer : Http.Response} (h : Draw.Yields (Session.decrypt S body) session plain session')
    (hanswer : Http.Response.decode plain = .ok answer) :
    (Pool.step S sampleClient (samplePool g session turn first (.exchanging 0 frame))
      (.deliver 1 now (.ok { status := 200, headers := [], body }) judge)).phase? 1 =
      some (.finished (.ok (.response answer))) := by
  rw [Pool.step_received rfl rfl rfl rfl h hanswer]
  rfl

/-- The first call has sent its request, and the second one waits for its turn. -/
theorem run_asked (hserves : S.Serves 128) (g : ρ) : ∃ first : Sealed,
    first.MadeBy S (Session.start .initiator .testing .sample) ∧ first.frame.counter = 1 ∧
    first.plain = sampleText "/first" ∧
    run S sampleClient (sample g) asked = {
      pool := samplePool (S.draw 4 g).2
        { Session.start .initiator .testing .sample with sent := 1 } ⟨some 0, [1]⟩
        (.exchanging 0 first.frame) (.ready 0 (sampleText "/second"))
      responder := Party.start .responder .testing .sample } := by
  have hcounter : (Session.start .initiator .testing .sample).nextOutgoing = .ok 1 := rfl
  obtain ⟨first, hmade, hfirst, hplain, -, hsend⟩ :=
    Party.yields_encrypt hserves hcounter rfl g length_sampleText_lt.1 []
  refine ⟨first, hmade, hfirst, hplain, ?_⟩
  have hpool : run S sampleClient (sample g) asked = {
      pool := Pool.step S sampleClient (Pool.step S sampleClient (Pool.step S sampleClient
        (sample g).pool (.advance 0)) (.advance 1)) (.advance 0)
      responder := Party.start .responder .testing .sample } := rfl
  rw [hpool, sample, step_written, step_sent_first rfl hsend]

/-- The first exchange failed after the responder had answered; the second call has sent its
request. -/
theorem run_failed (hinverts : S.Inverts) (htagged : S.Tagged) (hserves : S.Serves 128) (g : ρ) :
    ∃ (answer second : Sealed) (g' : ρ),
      answer.MadeBy S (Session.start .responder .testing .sample) ∧ answer.frame.counter = 1 ∧
      answer.plain = sampleAnswer ∧ second.frame.counter = 2 ∧
      run S sampleClient (sample g) (failed S g) = {
        pool := samplePool g' { Session.start .initiator .testing .sample with sent := 2 }
          ⟨some 1, []⟩ (.evicting 0 (.transport "down")) (.exchanging 0 second.frame)
        responder := {
          session := { Session.start .responder .testing .sample with sent := 1, received := 1 }
          sealed := [answer], accepted := [sampleText "/first"] } } := by
  obtain ⟨first, hfirst, hfirstCounter, hfirstPlain, hasked⟩ := run_asked hserves g
  -- the responder accepts the first request and answers it
  have hfeeds : (Session.start .initiator .testing .sample).Feeds
      (Session.start .responder .testing .sample) := ⟨rfl, rfl, ⟨rfl, rfl⟩, rfl⟩
  have hdecrypt := hfirst.decrypt_eq hinverts htagged hfeeds (by rw [hfirstPlain]; decide)
    (by decide) hfirstCounter nofun
  rw [hfirstCounter, hfirstPlain] at hdecrypt
  have haccepted : (Party.start .responder .testing .sample).decrypt S first.frame.toBytes = {
      session := { Session.start .responder .testing .sample with received := 1 }
      sealed := [], accepted := [sampleText "/first"] } := by
    simp only [Party.decrypt]
    rw [Party.start, hdecrypt.run_eq]
    rfl
  have hcounter : { Session.start .responder .testing .sample with received := 1 }.nextOutgoing =
    .ok 1 := rfl
  obtain ⟨answer, hanswer, hanswerCounter, hanswerPlain, hanswered⟩ := Party.encrypt_eq (p := {
      session := { Session.start .responder .testing .sample with received := 1 }
      sealed := [], accepted := [sampleText "/first"] }) hserves hcounter rfl g
    length_sampleAnswer_lt
  -- the second call sends its request
  have hcounter : { Session.start .initiator .testing .sample with sent := 1 }.nextOutgoing =
    .ok 2 := rfl
  obtain ⟨second, -, hsecondCounter, -, -, hsend⟩ :=
    Party.yields_encrypt hserves hcounter rfl (S.draw 4 g).2 length_sampleText_lt.2 []
  refine ⟨answer, second, (S.draw 4 (S.draw 4 g).2).2, hanswer, hanswerCounter, hanswerPlain,
    hsecondCounter, ?_⟩
  have hwire : wireOf (run S sampleClient (sample g) asked) 0 = first.frame.toBytes := by
    rw [hasked]
    rfl
  have hevents : failed S g = asked ++ [.responder (.decrypt first.frame.toBytes),
      .responder (.encrypt g sampleAnswer),
      .client (.deliver 0 0 (.error (.transport "down")) silent),
      .client (.advance 1)] := by
    rw [failed, hwire]
  have hrun : ∀ (w : World ρ) (wire plain : Bytes) (m m' : Pool.Move),
      run S sampleClient w [.responder (.decrypt wire), .responder (.encrypt g plain), .client m,
        .client m'] = {
      pool := Pool.step S sampleClient (Pool.step S sampleClient w.pool m) m'
      responder := (w.responder.decrypt S wire).encrypt S g plain } := fun _ _ _ _ _ => rfl
  rw [hevents, run_append, hasked, hrun, haccepted, hanswered]
  have hlost : Pool.step S sampleClient (samplePool (S.draw 4 g).2
        { Session.start .initiator .testing .sample with sent := 1 } ⟨some 0, [1]⟩
        (.exchanging 0 first.frame) (.ready 0 (sampleText "/second")))
      (.deliver 0 0 (.error (.transport "down")) silent) =
    samplePool (S.draw 4 g).2
      { Session.start .initiator .testing .sample with sent := 1 } ⟨some 1, []⟩
      (.evicting 0 (.transport "down")) (.ready 0 (sampleText "/second")) := rfl
  rw [hlost, step_sent_second rfl hsend]
  rfl

/-- The second call returns the answer to the first. -/
theorem run_replayed (hinverts : S.Inverts) (htagged : S.Tagged) (hserves : S.Serves 128) (g : ρ) :
    Established (sample g) 0 .testing .sample ∧
      Authentic S sampleClient 0 SessionKeys.sample.responses (sample g)
        (failed S g ++ [replayed S g]) ∧
      (∃ frame, frame.counter = 2 ∧ (run S sampleClient (sample g) (failed S g)).pool.phase? 1 =
        some (.exchanging 0 frame)) ∧
      (run S sampleClient (sample g) (failed S g ++ [replayed S g])).pool.phase? 1 =
        some (.finished (.ok (.response
          { status := 200, reason := "OK", headers := [], body := [] }))) ∧
      ∀ s ∈ (run S sampleClient (sample g) (failed S g)).responder.sealed, s.frame.counter = 1 := by
  obtain ⟨answer, second, g', hmade, hcounter, hplain, hsecond, hrun⟩ :=
    run_failed hinverts htagged hserves g
  have hevent : replayed S g = .client (.deliver 1 0
      (.ok { status := 200, headers := [], body := answer.frame.toBytes }) silent) := by
    rw [replayed, hrun]
    simp
  have hestablished : Established (sample g) 0 .testing SessionKeys.sample := by
    refine ⟨⟨_, rfl, rfl⟩, fun i => ?_, rfl⟩
    match i with
    | 0 => rfl
    | 1 => rfl
    | i + 2 => rfl
  have hfeeds : (Session.start .responder .testing .sample).Feeds
      { Session.start .initiator .testing .sample with sent := 2 } :=
    ⟨rfl, rfl, ⟨rfl, rfl⟩, rfl⟩
  have hnonempty : answer.plain ≠ [] := by
    rw [hplain]
    decide
  have hparse := hmade.parse_eq htagged rfl hnonempty
  have hopened := hmade.decrypt_eq hinverts htagged hfeeds hnonempty (by decide) hcounter
    fun _ => by rw [hcounter]; decide
  rw [hplain] at hopened
  refine ⟨hestablished, ?_, ⟨second.frame, hsecond, ?_⟩, ?_, ?_⟩
  · refine Authentic.append ⟨trivial, trivial, trivial, trivial, trivial, trivial, trivial, trivial⟩
      ⟨?_, trivial⟩
    rw [hevent, hrun]
    intro frame opened plain _ hframe _
    obtain rfl := Except.ok.inj (hparse.symm.trans hframe)
    exact ⟨answer, List.mem_singleton_self answer, rfl, rfl, rfl⟩
  · rw [hrun]
    rfl
  · have hstep : ∀ (w : World ρ) (m : Pool.Move),
        (run S sampleClient w [.client m]).pool = Pool.step S sampleClient w.pool m :=
      fun _ _ => rfl
    rw [run_append, hevent, hrun, hstep]
    exact step_received_second hopened decode_sampleAnswer
  · intro s hs
    rw [hrun] at hs
    have hs : s ∈ [answer] := hs
    rw [List.mem_singleton.mp hs]
    exact hcounter

/-- With the real primitives, one exchange is lost and the second call returns the answer before its
own. -/
theorem returned_response_sample :
    let w := sample (Generator.ofSeed 7)
    let events := failed Suite.standard (Generator.ofSeed 7)
    let e := replayed Suite.standard (Generator.ofSeed 7)
    let before := run Suite.standard sampleClient w events
    let after := run Suite.standard sampleClient w (events ++ [e])
    let response : Http.Response := { status := 200, reason := "OK", headers := [], body := [] }
    Suite.standard.Inverts ∧ Established w 0 .testing .sample ∧
      Authentic Suite.standard sampleClient 0 SessionKeys.sample.responses w (events ++ [e]) ∧
      ∃ frame, before.pool.phase? 1 = some (.exchanging 0 frame) ∧
        after.pool.phase? 1 = some (.finished (.ok (.response response))) ∧
        ∃ s ∈ before.responder.sealed, Http.Response.decode s.plain = .ok response ∧
          s.accepted.length = s.frame.counter.toNat ∧
          s.frame.counter.toNat + losses Suite.standard sampleClient 0 w events =
            frame.counter.toNat ∧
          (s.frame.counter = frame.counter ↔
            losses Suite.standard sampleClient 0 w events = 0) := by
  generalize Generator.ofSeed 7 = g
  have hinverts := Suite.standard_inverts
  obtain ⟨hestablished, hauthentic, ⟨frame, -, hbefore⟩, hafter, -⟩ :=
    run_replayed hinverts Suite.standard_tagged (Suite.standard_serves 128) g
  exact ⟨hinverts, hestablished, hauthentic, frame, hbefore, hafter,
    returned_response hinverts sampleClient hestablished hauthentic hbefore hafter⟩

/-- It is not so that every call returns the answer to its own request. -/
theorem not_own_response : ¬ ∀ (w : World Generator) (events : List (Event Generator))
    (e : Event Generator) (i : Nat) (frame : Frame) (response : Http.Response),
    Established w 0 .testing .sample →
    Authentic Suite.standard sampleClient 0 SessionKeys.sample.responses w (events ++ [e]) →
    (run Suite.standard sampleClient w events).pool.phase? i = some (.exchanging 0 frame) →
    (run Suite.standard sampleClient w (events ++ [e])).pool.phase? i =
      some (.finished (.ok (.response response))) →
    ∃ s ∈ (run Suite.standard sampleClient w events).responder.sealed,
      Http.Response.decode s.plain = .ok response ∧ s.frame.counter = frame.counter := by
  intro hall
  obtain ⟨hestablished, hauthentic, ⟨frame, hframe, hbefore⟩, hafter, hsealed⟩ :=
    run_replayed Suite.standard_inverts Suite.standard_tagged (Suite.standard_serves 128)
      (Generator.ofSeed 7)
  obtain ⟨s, hs, -, hcounter⟩ := hall _ _ _ _ _ _ hestablished hauthentic hbefore hafter
  rw [hsealed s hs, hframe] at hcounter
  exact absurd hcounter (by decide)

end World

end SealedTunnel
