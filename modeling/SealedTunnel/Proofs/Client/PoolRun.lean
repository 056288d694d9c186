import SealedTunnel.Client.Pool
import SealedTunnel.Proofs.Channel.Frames

/-!
# Runs of the pool

Everything that can happen to a pool of channels, as one relation. Invariants
are proved by cases on it, and never look into the pool's own functions.

* `Judge` — answers to the questions of a handshake, which may depend on what was asked before.
* `Pool.Move`, `Pool.step`, `Pool.run` — what may happen next, in any order.
* `Pool.Transition` — what it comes to, one case for each way on; `Pool.step_transition`.
-/

namespace SealedTunnel

/-! ## Judges -/

/-- An answer to each question, given the questions before it. -/
abbrev Judge : Type := List Question → (q : Question) → q.Answer

/-- What a computation ends with under a judge. -/
def Consult.under {α : Type} (c : Consult α) (judge : Judge) : α :=
  (c.run (fun q asked => (judge asked q, asked ++ [q])) []).1

theorem Consult.run_bind {α β σ : Type} (answer : (q : Question) → σ → q.Answer × σ)
    (c : Consult α) (f : α → Consult β) (s : σ) :
    (c.bind f).run answer s = (f (c.run answer s).1).run answer (c.run answer s).2 := by
  induction c generalizing s with
  | done a => rfl
  | asking q next ih => exact ih _ _

/-- Nothing is asked after a computation that ends without a question. -/
theorem Consult.under_bind {α β : Type} {judge : Judge} {c : Consult α} {f : α → Consult β} {b : β}
    (h : f (c.under judge) = .done b) : (c.bind f).under judge = b := by
  simp only [under] at h ⊢
  rw [run_bind, h, run]

namespace Pool

variable {ρ τ : Type}

/-! ## Moves -/

/-- What may happen next. -/
inductive Move where
  /-- a task enters -/
  | submit (endpoint subject : String) (errand : Errand)
  /-- a task takes a step -/
  | advance (task : Nat)
  /-- the reply that a task waits for is there -/
  | deliver (task : Nat) (now : UInt64) (reply : Outer.Reply) (judge : Judge)
  /-- a task is given up -/
  | cancel (task : Nat)

/-- The pool after a move. A task that cannot take a step stays where it is. -/
def step (S : Suite ρ) (client : Client τ) (p : Pool ρ) : Move → Pool ρ
  | .submit endpoint subject errand => p.submit endpoint subject errand
  | .advance task => (advance S client p task).getD p
  | .deliver task now reply judge => (deliver S client now p task reply).under judge
  | .cancel task => p.cancel task

/-- The pool after moves in this order. -/
def run (S : Suite ρ) (client : Client τ) (p : Pool ρ) (moves : List Move) : Pool ρ :=
  moves.foldl (step S client) p

/-- Where a task stands. -/
def phase? (p : Pool ρ) (task : Nat) : Option Phase := p.tasks[task]?.map Task.phase

/-! ## Transitions -/

/-- The ways in which a pool goes on. -/
inductive Transition (S : Suite ρ) (client : Client τ) (p : Pool ρ) : Move → Pool ρ → Prop where
  /-- there is nothing to do -/
  | idle {m : Move} : Transition S client p m p
  /-- a task enters -/
  | submitted {endpoint subject : String} {errand : Errand} {task : Task} :
    task.phase = .seeking ∨ (∃ e, task.phase = .finished (.error e)) →
    Transition S client p (.submit endpoint subject errand) { p with tasks := p.tasks ++ [task] }
  /-- a task finds a line in the slot of its key -/
  | found {i slot line : Nat} {task : Task} : p.tasks[i]? = some task → task.phase = .seeking →
    p.entries.lookup task.key = some slot → p.lineOf? slot = some line →
    Transition S client p (.advance i) (p.setPhase i (.connected line))
  /-- a task joins those who wait at the slot of its key -/
  | joined {i slot : Nat} {task : Task} : p.tasks[i]? = some task → task.phase = .seeking →
    p.entries.lookup task.key = some slot → p.lineOf? slot = none →
    Transition S client p (.advance i) ((p.turnSlot slot (·.ask i)).setPhase i (.queued slot))
  /-- a task opens a slot for its key -/
  | opened {i : Nat} {task : Task} : p.tasks[i]? = some task → task.phase = .seeking →
    p.entries.lookup task.key = none →
    Transition S client p (.advance i)
      ({ p with
        entries := p.entries ++ [(task.key, p.slots.length)]
        slots := p.slots ++ [{ turn := Turn.free.ask i, line := none }] : Pool ρ }.setPhase i
        (.queued p.slots.length))
  /-- a task that waited finds the line -/
  | handed {i slot line : Nat} {task : Task} {s : Slot} : p.tasks[i]? = some task →
    task.phase = .queued slot → p.slots[slot]? = some s → s.line = some line →
    Transition S client p (.advance i) (p.setPhase i (.connected line))
  /-- a task whose turn it is starts a handshake -/
  | began {i slot : Nat} {task : Task} {s : Slot} {establishment : Establishment} {g : ρ} :
    p.tasks[i]? = some task → task.phase = .queued slot → p.slots[slot]? = some s →
    s.line = none → s.turn.holder = some i → p.entries.lookup task.key = some slot →
    (Establishment.start S client.environment task.key.1).run p.generator =
      (.ok establishment, g) →
    Transition S client p (.advance i)
      ({ p with generator := g }.setPhase i (.establishing slot establishment))
  /-- or cannot even start it -/
  | unstarted {i slot : Nat} {task : Task} {s : Slot} {e : ClientError} {g : ρ} :
    p.tasks[i]? = some task → task.phase = .queued slot → p.slots[slot]? = some s →
    s.line = none → s.turn.holder = some i → p.entries.lookup task.key = some slot →
    (Establishment.start S client.environment task.key.1).run p.generator = (.error e, g) →
    Transition S client p (.advance i) ({ p with generator := g }.setPhase i (.failing slot e))
  /-- a task whose turn it is finds the slot gone, and looks again -/
  | restarted {i slot : Nat} {task : Task} {s : Slot} : p.tasks[i]? = some task →
    task.phase = .queued slot → p.slots[slot]? = some s → s.line = none →
    s.turn.holder = some i → p.entries.lookup task.key ≠ some slot →
    Transition S client p (.advance i) ((p.turnSlot slot Turn.release).setPhase i .seeking)
  /-- a task whose handshake failed clears its slot away -/
  | cleared {i slot : Nat} {task : Task} {e : ClientError} : p.tasks[i]? = some task →
    task.phase = .failing slot e →
    Transition S client p (.advance i)
      (((p.dropSlot task.key slot).turnSlot slot Turn.release).setPhase i (.finished (.error e)))
  /-- a task that wanted a line has it -/
  | joinedLine {i line : Nat} {task : Task} : p.tasks[i]? = some task →
    task.phase = .connected line → task.errand = .connect →
    Transition S client p (.advance i) (p.setPhase i (.finished (.ok (.line line))))
  /-- a request cannot be written -/
  | unwritten {i line : Nat} {task : Task} {request : Http.Request} {fault : Http.Fault} :
    p.tasks[i]? = some task → task.phase = .connected line → task.errand = .call request →
    (request.withUserAgent client.userAgent).encode = .error fault →
    Transition S client p (.advance i) (p.setPhase i (.finished (.error (.codec fault))))
  /-- a task with a written request asks for the session of its line -/
  | written {i line : Nat} {task : Task} {request : Http.Request} {plain : Bytes} :
    p.tasks[i]? = some task → task.phase = .connected line → task.errand = .call request →
    (request.withUserAgent client.userAgent).encode = .ok plain →
    Transition S client p (.advance i)
      ((p.turnLine line (·.ask i)).setPhase i (.ready line plain))
  /-- a task whose turn it is sends its request -/
  | sent {i line : Nat} {task : Task} {l : Line} {plain : Bytes} {frame : Frame}
    {session : Session} {g : ρ} : p.tasks[i]? = some task → task.phase = .ready line plain →
    p.lines[line]? = some l → l.turn.holder = some i →
    (Session.encrypt S plain).run (l.session, p.generator) = (.ok frame, session, g) →
    Transition S client p (.advance i)
      (({ p with generator := g }.updateLine line fun l => { l with session }).setPhase i
        (.exchanging line frame))
  /-- or cannot encrypt it -/
  | unsent {i line : Nat} {task : Task} {l : Line} {plain : Bytes} {e : ChannelError} {g : ρ} :
    p.tasks[i]? = some task → task.phase = .ready line plain → p.lines[line]? = some l →
    l.turn.holder = some i →
    (Session.encrypt S plain).run (l.session, p.generator) = (.error e, l.session, g) →
    Transition S client p (.advance i)
      (({ p with generator := g }.turnLine line Turn.release).setPhase i
        (.evicting line (.channel e)))
  /-- a task whose exchange failed evicts its line -/
  | evicted {i line : Nat} {task : Task} {l : Line} {e : ClientError} :
    p.tasks[i]? = some task → task.phase = .evicting line e → p.lines[line]? = some l →
    Transition S client p (.advance i)
      ((p.evict (l.connection.endpoint.text, task.key.2) line).setPhase i (.finished (.error e)))
  /-- a handshake goes on with another request -/
  | continued {i slot : Nat} {task : Task} {establishment next : Establishment} {now : UInt64}
    {reply : Outer.Reply} {judge : Judge} {g : ρ} : p.tasks[i]? = some task →
    task.phase = .establishing slot establishment →
    ((Establishment.resume S client.policy now establishment reply).run.run p.generator).under
      judge = (.ok (.waiting next), g) →
    Transition S client p (.deliver i now reply judge)
      ({ p with generator := g }.setPhase i (.establishing slot next))
  /-- a handshake ends with a channel -/
  | established {i slot : Nat} {task : Task} {establishment : Establishment} {now : UInt64}
    {reply : Outer.Reply} {judge : Judge} {connection : Connection} {session : Session}
    {g : ρ} : p.tasks[i]? = some task → task.phase = .establishing slot establishment →
    ((Establishment.resume S client.policy now establishment reply).run.run p.generator).under
      judge = (.ok (.established connection session), g) →
    Transition S client p (.deliver i now reply judge)
      ({ p with generator := g }.settle i slot connection session)
  /-- a handshake fails -/
  | broken {i slot : Nat} {task : Task} {establishment : Establishment} {now : UInt64}
    {reply : Outer.Reply} {judge : Judge} {e : ClientError} {g : ρ} :
    p.tasks[i]? = some task → task.phase = .establishing slot establishment →
    ((Establishment.resume S client.policy now establishment reply).run.run p.generator).under
      judge = (.error e, g) →
    Transition S client p (.deliver i now reply judge)
      ({ p with generator := g }.setPhase i (.failing slot e))
  /-- a response is decrypted, and read if it can be -/
  | received {i line : Nat} {task : Task} {l : Line} {frame : Frame} {now : UInt64}
    {reply : Outer.Reply} {judge : Judge} {response : Outer.Response} {plain : Bytes}
    {session : Session} {result : Except ClientError Outcome} : p.tasks[i]? = some task →
    task.phase = .exchanging line frame → p.lines[line]? = some l →
    (frameRequest l.connection frame).success reply = .ok response →
    (Session.decrypt S response.body).run l.session = (.ok plain, session) →
    (∀ answer, result = .ok (.response answer) → Http.Response.decode plain = .ok answer) →
    (∀ line, result ≠ .ok (.line line)) → (∀ e, result = .error e → ∃ fault, e = .codec fault) →
    Transition S client p (.deliver i now reply judge)
      (((p.turnLine line Turn.release).updateLine line fun l => { l with session }).setPhase i
        (.finished result))
  /-- an exchange fails after its request was sent -/
  | lost {i line : Nat} {task : Task} {l : Line} {frame : Frame} {now : UInt64}
    {reply : Outer.Reply} {judge : Judge} {e : ClientError} : p.tasks[i]? = some task →
    task.phase = .exchanging line frame → p.lines[line]? = some l →
    (frameRequest l.connection frame).success reply = .error e ∨ (∃ e', e = .channel e') →
    Transition S client p (.deliver i now reply judge)
      ((p.turnLine line Turn.release).setPhase i (.evicting line e))
  /-- a task at a slot is given up -/
  | leftSlot {i slot : Nat} {task : Task} : p.tasks[i]? = some task →
    task.phase = .queued slot ∨ (∃ establishment, task.phase = .establishing slot establishment) ∨
      (∃ e, task.phase = .failing slot e) →
    Transition S client p (.cancel i) ((p.turnSlot slot (·.leave i)).setPhase i .cancelled)
  /-- a task on a line is given up -/
  | leftLine {i line : Nat} {task : Task} : p.tasks[i]? = some task →
    (∃ plain, task.phase = .ready line plain) ∨ (∃ frame, task.phase = .exchanging line frame) →
    Transition S client p (.cancel i) ((p.turnLine line (·.leave i)).setPhase i .cancelled)
  /-- a task that holds nothing is given up -/
  | left {i : Nat} {task : Task} : p.tasks[i]? = some task →
    task.phase = .seeking ∨ (∃ line, task.phase = .connected line) ∨
      (∃ line e, task.phase = .evicting line e) ∨ task.phase = .cancelled →
    Transition S client p (.cancel i) (p.setPhase i .cancelled)

variable {S : Suite ρ} {client : Client τ}

/-! ## Changes to lines -/

section

variable {p : Pool ρ}

/-- A line after a change to the turn of a line. -/
theorem getElem?_turnLine {line : Nat} {l : Line} (hl : p.lines[line]? = some l) (line' : Nat)
    (f : Turn → Turn) : (p.turnLine line' f).lines[line]? =
      some { l with turn := if line' = line then f l.turn else l.turn } := by
  simp only [turnLine, updateLine]
  rw [List.getElem?_modify, hl]
  split <;> rfl

theorem getElem?_updateLine {line : Nat} {l : Line} (hl : p.lines[line]? = some l) (line' : Nat)
    (f : Line → Line) : (p.updateLine line' f).lines[line]? =
      some (if line' = line then f l else l) := by
  simp only [updateLine]
  rw [List.getElem?_modify, hl]
  split <;> rfl

/-- A line that gets back the session that it has stays as it is. -/
theorem updateLine_session {line : Nat} {session : Session}
    (h : ∀ l, p.lines[line]? = some l → l.session = session) :
    (p.updateLine line fun l => { l with session }) = p := by
  have hlines : (p.updateLine line fun l => { l with session }).lines = p.lines := by
    refine List.ext_getElem? fun i => ?_
    cases hl : p.lines[i]? with
    | none =>
      rw [updateLine, List.getElem?_modify, hl]
      rfl
    | some l =>
      rw [getElem?_updateLine hl]
      split
      · rename_i hi
        subst hi
        obtain rfl := h l hl
        rfl
      · rfl
  exact congrArg (fun lines => { p with lines }) hlines

end

/-! ## Every move is one of them -/

theorem submit_transition (p : Pool ρ) (endpoint subject : String) (errand : Errand) :
    Transition S client p (.submit endpoint subject errand) (p.submit endpoint subject errand) := by
  simp only [submit]
  cases destination endpoint with
  | ok uri => exact .submitted (.inl rfl)
  | error e => exact .submitted (.inr ⟨e, rfl⟩)

theorem cancel_transition (p : Pool ρ) (i : Nat) :
    Transition S client p (.cancel i) (p.cancel i) := by
  simp only [cancel]
  cases htask : p.tasks[i]? with
  | none => exact .idle
  | some task =>
    dsimp only
    cases hphase : task.phase with
    | seeking => exact .left htask (.inl hphase)
    | queued slot => exact .leftSlot htask (.inl hphase)
    | establishing slot establishment => exact .leftSlot htask (.inr (.inl ⟨_, hphase⟩))
    | failing slot e => exact .leftSlot htask (.inr (.inr ⟨_, hphase⟩))
    | connected line => exact .left htask (.inr (.inl ⟨_, hphase⟩))
    | ready line plain => exact .leftLine htask (.inl ⟨_, hphase⟩)
    | exchanging line frame => exact .leftLine htask (.inr ⟨_, hphase⟩)
    | evicting line e => exact .left htask (.inr (.inr (.inl ⟨_, _, hphase⟩)))
    | finished result => exact .idle
    | cancelled => exact .left htask (.inr (.inr (.inr hphase)))

theorem seek_transition {p : Pool ρ} {i : Nat} {task : Task} (htask : p.tasks[i]? = some task)
    (hphase : task.phase = .seeking) :
    Transition S client p (.advance i) (p.seek i task.key) := by
  simp only [seek]
  cases hslot : p.entries.lookup task.key with
  | none => exact .opened htask hphase hslot
  | some slot =>
    dsimp only
    cases hline : p.lineOf? slot with
    | none => exact .joined htask hphase hslot hline
    | some line => exact .found htask hphase hslot hline

theorem begin_transition {p : Pool ρ} {i slot : Nat} {task : Task} {s : Slot}
    (htask : p.tasks[i]? = some task) (hphase : task.phase = .queued slot)
    (hs : p.slots[slot]? = some s) (hline : s.line = none) (hholder : s.turn.holder = some i) :
    Transition S client p (.advance i) (begin S client p i task.key slot) := by
  simp only [begin]
  split
  · rename_i hslot
    rcases hstart : (Establishment.start S client.environment task.key.1).run p.generator with
      ⟨e | establishment, g⟩
    · exact .unstarted htask hphase hs hline hholder hslot hstart
    · exact .began htask hphase hs hline hholder hslot hstart
  · rename_i hslot
    exact .restarted htask hphase hs hline hholder hslot

theorem useLine_transition {p : Pool ρ} {i line : Nat} {task : Task}
    (htask : p.tasks[i]? = some task) (hphase : task.phase = .connected line) :
    Transition S client p (.advance i) (useLine client p i task.errand line) := by
  simp only [useLine]
  cases herrand : task.errand with
  | connect => exact .joinedLine htask hphase herrand
  | call request =>
    dsimp only
    cases hplain : (request.withUserAgent client.userAgent).encode with
    | error fault => exact .unwritten htask hphase herrand hplain
    | ok plain => exact .written htask hphase herrand hplain

/-- A request that cannot be encrypted leaves the line free for the next one. -/
theorem send_of_error {p : Pool ρ} {i line : Nat} {l : Line} {plain : Bytes} {session : Session}
    {e : ChannelError} {g : ρ} (hl : p.lines[line]? = some l)
    (hsend : (Session.encrypt S plain).run (l.session, p.generator) = (.error e, session, g)) :
    session = l.session ∧ send S p i line l.session plain =
      ({ p with generator := g }.turnLine line Turn.release).setPhase i
        (.evicting line (.channel e)) := by
  obtain rfl : session = l.session := (Session.spares_encrypt S plain).eq hsend
  have hsame : ({ p with generator := g }.updateLine line fun l' =>
      { l' with session := l.session }) = { p with generator := g } :=
    updateLine_session fun l' hl' => congrArg Line.session (Option.some.inj (hl'.symm.trans hl))
  refine ⟨rfl, ?_⟩
  simp only [send, hsend]
  rw [hsame]

theorem send_transition {p : Pool ρ} {i line : Nat} {task : Task} {l : Line} {plain : Bytes}
    (htask : p.tasks[i]? = some task) (hphase : task.phase = .ready line plain)
    (hl : p.lines[line]? = some l) (hholder : l.turn.holder = some i) :
    Transition S client p (.advance i) (send S p i line l.session plain) := by
  rcases hsend : (Session.encrypt S plain).run (l.session, p.generator) with
    ⟨e | frame, session, g⟩
  · obtain ⟨rfl, hsent⟩ := send_of_error (i := i) hl hsend
    rw [hsent]
    exact .unsent htask hphase hl hholder hsend
  · simp only [send, hsend]
    exact .sent htask hphase hl hholder hsend

theorem advance_transition (p : Pool ρ) (i : Nat) :
    Transition S client p (.advance i) ((advance S client p i).getD p) := by
  simp only [advance]
  cases htask : p.tasks[i]? with
  | none => exact .idle
  | some task =>
    rw [Option.bind_eq_bind, Option.bind_some]
    -- a task that waits for something, or for its turn, stays where it is
    cases hphase : task.phase with
    | seeking => exact seek_transition htask hphase
    | queued slot =>
      dsimp only
      cases hs : p.slots[slot]? with
      | none => exact .idle
      | some s =>
        rw [Option.bind_eq_bind, Option.bind_some]
        cases hline : s.line with
        | some line => exact .handed htask hphase hs hline
        | none =>
          dsimp only
          by_cases hholder : s.turn.holder = some i
          · rw [if_pos hholder]
            exact begin_transition htask hphase hs hline hholder
          · rw [if_neg hholder]
            exact .idle
    | failing slot e => exact .cleared htask hphase
    | connected line => exact useLine_transition htask hphase
    | ready line plain =>
      dsimp only
      cases hl : p.lines[line]? with
      | none => exact .idle
      | some l =>
        rw [Option.bind_eq_bind, Option.bind_some]
        by_cases hholder : l.turn.holder = some i
        · rw [if_pos hholder]
          exact send_transition htask hphase hl hholder
        · rw [if_neg hholder]
          exact .idle
    | evicting line e =>
      dsimp only
      cases hl : p.lines[line]? with
      | none => exact .idle
      | some l => exact .evicted htask hphase hl
    | establishing slot establishment => exact .idle
    | exchanging line frame => exact .idle
    | finished result => exact .idle
    | cancelled => exact .idle

/-- A call whose answer was opened ends with what can be read of it. -/
theorem result_of_decode (plain : Bytes) {result : Except ClientError Outcome}
    (h : (match Http.Response.decode plain with
      | .ok response => .ok (.response response)
      | .error fault => .error (.codec fault)) = result) :
    (∀ answer, result = .ok (.response answer) → Http.Response.decode plain = .ok answer) ∧
      (∀ line, result ≠ .ok (.line line)) ∧ ∀ e, result = .error e → ∃ fault, e = .codec fault := by
  subst h
  cases Http.Response.decode plain with
  | error fault => exact ⟨nofun, nofun, fun e he => ⟨fault, (Except.error.inj he).symm⟩⟩
  | ok answer =>
    refine ⟨fun answer' h => ?_, nofun, nofun⟩
    exact congrArg Except.ok (Outcome.response.inj (Except.ok.inj h))

/-- A response that does not open leaves the line free, too. -/
theorem receive_of_error {p : Pool ρ} {i line : Nat} {l : Line} {request : Outer.Request}
    {reply : Outer.Reply} {response : Outer.Response} {session : Session} {e : ChannelError}
    (hl : p.lines[line]? = some l) (hresponse : request.success reply = .ok response)
    (hdecrypt : (Session.decrypt S response.body).run l.session = (.error e, session)) :
    p.receive S i line l.session request reply =
      (p.turnLine line Turn.release).setPhase i (.evicting line (.channel e)) := by
  obtain rfl : session = l.session := (Session.spares_decrypt S response.body).eq hdecrypt
  have hsame : ((p.turnLine line Turn.release).updateLine line fun l' =>
      { l' with session := l.session }) = p.turnLine line Turn.release := by
    refine updateLine_session fun l' hl' => ?_
    have hreleased := hl'.symm.trans (getElem?_turnLine hl line Turn.release)
    obtain rfl := Option.some.inj hreleased
    rfl
  simp only [receive, hresponse, hdecrypt]
  rw [hsame]

theorem receive_transition {p : Pool ρ} {i line : Nat} {task : Task} {l : Line} {frame : Frame}
    {now : UInt64} {reply : Outer.Reply} {judge : Judge} (htask : p.tasks[i]? = some task)
    (hphase : task.phase = .exchanging line frame) (hl : p.lines[line]? = some l) :
    Transition S client p (.deliver i now reply judge)
      (p.receive S i line l.session (frameRequest l.connection frame) reply) := by
  cases hresponse : (frameRequest l.connection frame).success reply with
  | error e =>
    simp only [receive, hresponse]
    exact .lost htask hphase hl (.inl hresponse)
  | ok response =>
    rcases hplain : (Session.decrypt S response.body).run l.session with ⟨e | plain, session⟩
    · rw [receive_of_error hl hresponse hplain]
      exact .lost htask hphase hl (.inr ⟨e, rfl⟩)
    · simp only [receive, hresponse, hplain]
      -- the session has moved on even if what was opened is no response
      obtain ⟨hanswer, hline, herror⟩ := result_of_decode plain rfl
      exact .received htask hphase hl hresponse hplain hanswer hline herror

theorem deliver_transition (p : Pool ρ) (i : Nat) (now : UInt64) (reply : Outer.Reply)
    (judge : Judge) : Transition S client p (.deliver i now reply judge)
      ((deliver S client now p i reply).under judge) := by
  simp only [deliver]
  cases htask : p.tasks[i]? with
  | none => exact .idle
  | some task =>
    dsimp only
    cases hphase : task.phase with
    | establishing slot establishment =>
      dsimp only
      rcases hresume : ((Establishment.resume S client.policy now establishment reply).run.run
        p.generator).under judge with ⟨e | (next | ⟨connection, session⟩), g⟩
      · rw [Consult.bind_def, Consult.under_bind (by rw [hresume]; rfl)]
        exact .broken htask hphase hresume
      · rw [Consult.bind_def, Consult.under_bind (by rw [hresume]; rfl)]
        exact .continued htask hphase hresume
      · rw [Consult.bind_def, Consult.under_bind (by rw [hresume]; rfl)]
        exact .established htask hphase hresume
    | exchanging line frame =>
      dsimp only
      cases hl : p.lines[line]? with
      | none => exact .idle
      | some l => exact receive_transition htask hphase hl
    | seeking => exact .idle
    | queued slot => exact .idle
    | failing slot e => exact .idle
    | connected line => exact .idle
    | ready line plain => exact .idle
    | evicting line e => exact .idle
    | finished result => exact .idle
    | cancelled => exact .idle

variable (S client) in
/-- A pool goes on in one of these ways, whatever happens. -/
theorem step_transition (p : Pool ρ) (m : Move) : Transition S client p m (step S client p m) := by
  cases m with
  | submit endpoint subject errand => exact submit_transition p endpoint subject errand
  | advance i => exact advance_transition p i
  | deliver i now reply judge => exact deliver_transition p i now reply judge
  | cancel i => exact cancel_transition p i

/-! ## Moves that succeed -/

/-- A task whose turn it is starts a handshake, if it can be started. -/
theorem step_began {p : Pool ρ} {i slot : Nat} {task : Task} {s : Slot}
    {establishment : Establishment} {g : ρ} (htask : p.tasks[i]? = some task)
    (hphase : task.phase = .queued slot) (hs : p.slots[slot]? = some s) (hline : s.line = none)
    (hholder : s.turn.holder = some i) (hmapped : p.entries.lookup task.key = some slot)
    (hstart : (Establishment.start S client.environment task.key.1).run p.generator =
      (.ok establishment, g)) :
    step S client p (.advance i) =
      { p with generator := g }.setPhase i (.establishing slot establishment) := by
  rw [step, advance, htask, Option.bind_eq_bind, Option.bind_some, hphase]
  dsimp only
  rw [hs, Option.bind_eq_bind, Option.bind_some, hline]
  dsimp only
  rw [if_pos hholder, begin, if_pos hmapped, hstart]
  rfl

section Replies

variable {p : Pool ρ} {i slot : Nat} {task : Task} {establishment : Establishment} {now : UInt64}
  {reply : Outer.Reply} {judge : Judge} {g : ρ}

/-- A handshake goes on with a reply, if the reply is as it has to be. -/
theorem step_continued {next : Establishment} (htask : p.tasks[i]? = some task)
    (hphase : task.phase = .establishing slot establishment)
    (hresume : ((Establishment.resume S client.policy now establishment reply).run.run
      p.generator).under judge = (.ok (.waiting next), g)) :
    step S client p (.deliver i now reply judge) =
      { p with generator := g }.setPhase i (.establishing slot next) := by
  rw [step, deliver, htask]
  dsimp only
  rw [hphase]
  dsimp only
  rw [Consult.bind_def, Consult.under_bind (by rw [hresume]; rfl)]

/-- It may end there. -/
theorem step_established {connection : Connection} {session : Session}
    (htask : p.tasks[i]? = some task) (hphase : task.phase = .establishing slot establishment)
    (hresume : ((Establishment.resume S client.policy now establishment reply).run.run
      p.generator).under judge = (.ok (.established connection session), g)) :
    step S client p (.deliver i now reply judge) =
      { p with generator := g }.settle i slot connection session := by
  rw [step, deliver, htask]
  dsimp only
  rw [hphase]
  dsimp only
  rw [Consult.bind_def, Consult.under_bind (by rw [hresume]; rfl)]

end Replies

/-- A task whose turn it is sends its request, if it can be encrypted. -/
theorem step_sent {p : Pool ρ} {i line : Nat} {task : Task} {l : Line} {plain : Bytes}
    {frame : Frame} {session : Session} {g : ρ} (htask : p.tasks[i]? = some task)
    (hphase : task.phase = .ready line plain) (hl : p.lines[line]? = some l)
    (hholder : l.turn.holder = some i)
    (hsend : Draw.Yields (Session.encrypt S plain) (l.session, p.generator) frame (session, g)) :
    step S client p (.advance i) =
      ({ p with generator := g }.updateLine line fun l => { l with session }).setPhase i
        (.exchanging line frame) := by
  rw [step, advance, htask, Option.bind_eq_bind, Option.bind_some, hphase]
  dsimp only
  rw [hl, Option.bind_eq_bind, Option.bind_some, if_pos hholder, send, hsend.run_eq]
  rfl

/-- A task that waits for a reply reads it, if it opens. -/
theorem step_received {p : Pool ρ} {i line : Nat} {task : Task} {l : Line} {frame : Frame}
    {now : UInt64} {response : Outer.Response} {judge : Judge} {plain : Bytes} {session : Session}
    {answer : Http.Response} (htask : p.tasks[i]? = some task)
    (hphase : task.phase = .exchanging line frame) (hl : p.lines[line]? = some l)
    (hstatus : response.status = 200)
    (hopened : Draw.Yields (Session.decrypt S response.body) l.session plain session)
    (hanswer : Http.Response.decode plain = .ok answer) :
    step S client p (.deliver i now (.ok response) judge) =
      ((p.turnLine line Turn.release).updateLine line fun l => { l with session }).setPhase i
        (.finished (.ok (.response answer))) := by
  have hsuccess : (frameRequest l.connection frame).success (.ok response) = .ok response :=
    if_pos hstatus
  rw [step, deliver, htask]
  dsimp only
  rw [hphase]
  dsimp only
  rw [hl]
  dsimp only
  rw [receive, hsuccess]
  dsimp only
  rw [hopened.run_eq]
  dsimp only
  rw [hanswer]
  rfl

end Pool

end SealedTunnel
