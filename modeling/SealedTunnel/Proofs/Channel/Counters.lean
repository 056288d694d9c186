import SealedTunnel.Proofs.Channel.Party

/-!
# Counters

What the two counters of a session go through, whatever it is asked to do and whatever the
primitives answer.

* `Session.decrypt_changes`, `Session.encrypt_changes` — what one call that succeeds changes.
* `Party.calls` — any sequence of calls, each with primitives of its own.
* `Party.counters` — no answer before its request, no IV twice, and nothing changes but the counter
  of a call that succeeds: a call that fails leaves the session as it was.
-/

namespace SealedTunnel

variable {ρ : Type}

namespace Session

open Draw (Yields)

variable {S : Suite ρ} {s s' : Session} {g g' : ρ} {plain : Bytes}

/-- Accepting a frame counts up by one the frames accepted, and changes nothing else. -/
theorem decrypt_changes {wire : Bytes} (h : Yields (decrypt S wire) s plain s') :
    s'.received.toNat = s.received.toNat + 1 ∧ s' = { s with received := s'.received } := by
  obtain ⟨frame, -, hlast, hnext, -, -, -, rfl⟩ := yields_decrypt.mp h
  refine ⟨?_, rfl⟩
  show frame.counter.toNat = _
  rw [hnext, toNat_add_one hlast]

/-- Sealing a frame remembers its counter, and changes nothing else. -/
theorem encrypt_changes {frame : Frame}
    (h : Yields (encrypt S plain) (s, g) frame (s', g')) :
    s'.sent = frame.counter ∧ s.sent < s'.sent ∧ s' = { s with sent := s'.sent } := by
  obtain ⟨-, hcounter, rfl⟩ := Party.madeBy_of_yields h []
  exact ⟨rfl, sent_lt hcounter, rfl⟩

end Session

namespace Party

/-- Do one thing after the other, each with primitives of its own. -/
def calls (p : Party) (list : List (Suite ρ × Action ρ)) : Party :=
  list.foldl (fun p call => p.step call.1 call.2) p

theorem Sequenced.calls {p : Party} (hp : Sequenced p) (list : List (Suite ρ × Action ρ)) :
    Sequenced (p.calls list) := by
  induction list generalizing p with
  | nil => exact hp
  | cons call list ih => exact ih (hp.step call.1 call.2)

theorem reset_calls (p : Party) (list : List (Suite ρ × Action ρ)) :
    (p.calls list).session.reset = p.session.reset := by
  induction list generalizing p with
  | nil => rfl
  | cons call list ih => exact (ih _).trans (reset_step p call.2)

/-- After any calls, answers and requests are in order, the frames sealed have increasing counters
and different IVs under the one key, and the next call changes the counter it is about if it
succeeds. If it fails, by whatever exit, it leaves the session as it was. -/
theorem counters (role : Role) (environment : Environment) (keys : SessionKeys)
    (list : List (Suite ρ × Action ρ)) :
    let p := (start role environment keys).calls list
    (role = .initiator → p.session.received ≤ p.session.sent) ∧
    (role = .responder → p.session.sent ≤ p.session.received) ∧
    p.session.reset = (Session.start role environment keys).reset ∧
    (p.sealed.Pairwise fun s s' => s.frame.counter < s'.frame.counter) ∧
    (p.sealed.Pairwise fun s s' => s.frame.iv ≠ s'.frame.iv) ∧
    ∀ S : Suite ρ,
      (∀ wire, match (Session.decrypt S wire).run p.session with
        | (.ok plain, s) => p.decrypt S wire = { p with
              session := s, accepted := p.accepted ++ [plain] } ∧
            s.received.toNat = p.session.received.toNat + 1 ∧
            s = { p.session with received := s.received }
        | (.error _, s) => s = p.session ∧ p.decrypt S wire = p) ∧
      (∀ g plain, match (Session.encrypt S plain).run (p.session, g) with
        | (.ok frame, s, _) => p.encrypt S g plain = { p with
              session := s, sealed := p.sealed ++ [{ frame, plain, accepted := p.accepted }] } ∧
            s.sent = frame.counter ∧ p.session.sent < s.sent ∧
            s = { p.session with sent := s.sent }
        | (.error _, s, _) => s = p.session ∧ p.encrypt S g plain = p) := by
  intro p
  have hp : Sequenced p := (start_sequenced role environment keys).calls list
  have hreset : p.session.reset = (Session.start role environment keys).reset :=
    reset_calls (start role environment keys) list
  have hrole : p.session.role = role := congrArg Session.role hreset
  refine ⟨fun h => hp.behind (hrole.trans h), fun h => hp.ahead (hrole.trans h), hreset,
    hp.increasing, hp.iv_ne, fun S => ⟨fun wire => ?_, fun g plain => ?_⟩⟩
  · rcases hresult : (Session.decrypt S wire).run p.session with ⟨e | plain, s⟩
    · obtain rfl : s = p.session := (Session.spares_decrypt S wire).eq hresult
      refine ⟨rfl, ?_⟩
      simp only [decrypt, hresult]
    · refine ⟨?_, Session.decrypt_changes (.of_run hresult)⟩
      simp only [decrypt, hresult]
  · rcases hresult : (Session.encrypt S plain).run (p.session, g) with ⟨e | frame, s, g'⟩
    · obtain rfl : s = p.session := (Session.spares_encrypt S plain).eq hresult
      refine ⟨rfl, ?_⟩
      simp only [encrypt, hresult]
    · refine ⟨?_, Session.encrypt_changes (.of_run hresult)⟩
      simp only [encrypt, hresult]

end Party

end SealedTunnel
