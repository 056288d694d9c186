import SealedTunnel.Proofs.Channel.Layout

/-!
# Counters at their end

Which counters a session can come to, up to the last ones, and what it does there. Numbers are
compared without a bound here, so that one that wraps is told from its successor.

* `Session.Attainable` — what holds of all counters that calls lead to; `Session.Spent` —
  nothing is left to answer, and no number is left for another request.
* `Session.Sends`, `Session.Accepts` — what a session that counts without a bound does.
* `Session.accepts_decrypt`, `Session.sends_encrypt` — so does a session, except for one refusal.
* `Session.leads_of_attainable` — calls lead to all counters that are attainable.
* `Party.exhaustion` — both together; `Party.wrapped_refusal` — the exception.
-/

namespace SealedTunnel

variable {ρ : Type} {S : Suite ρ}

namespace Session

variable {s s' s'' : Session} {counter : UInt64}

/-- Frames are sealed and opened only with keys that fit. -/
structure Equipped (s : Session) : Prop where
  /-- no frame is sealed without a key of the right size -/
  sealing : s.sent ≠ 0 → s.sealKey.length = 32
  /-- none is opened without one, or if the name of the keys does not fit into it -/
  opening : s.received ≠ 0 → s.openKey.length = 32 ∧ s.keyId.length = 32

/-- Keys that fit, and no answer without its request. -/
structure Attainable (s : Session) : Prop extends Equipped s where
  /-- an initiator gets no answer that it has not asked for -/
  behind : s.role = .initiator → s.received ≤ s.sent
  /-- a responder gives none that it has not been asked for -/
  ahead : s.role = .responder → s.sent ≤ s.received

/-- A responder that has answered the last request there can be. -/
def Spent (s : Session) : Prop :=
  s.role = .responder ∧ s.sent = lastCounter ∧ s.received = lastCounter

/-- What comes of sealing if numbers have no bound, and what the session is then. -/
inductive Sends (S : Suite ρ) (s : Session) (g : ρ) (plain : Bytes) :
    Except ChannelError Frame → Session → Prop
  /-- the next request -/
  | request {frame : Frame} : s.role = .initiator → frame.counter.toNat = s.sent.toNat + 1 →
    Sends S s g plain (.ok frame) { s with sent := frame.counter }
  /-- the numbers of requests are used up -/
  | exhausted : s.role = .initiator → s.sent.toNat + 1 = 2 ^ 64 →
    Sends S s g plain (.error (.internal "request counter exhausted")) s
  /-- the answer to the last request -/
  | answer {frame : Frame} : s.role = .responder → s.sent < s.received →
    frame.counter = s.received → Sends S s g plain (.ok frame) { s with sent := frame.counter }
  /-- it has been answered, and there is no other -/
  | answered {expected : UInt64} : s.role = .responder → s.sent = s.received →
    expected.toNat = s.sent.toNat + 1 →
    Sends S s g plain (.error (.counterMismatch expected s.received)) s
  /-- there is a number, but somebody failed while using the generator -/
  | poisoned : S.poisoned g = true →
    Sends S s g plain (.error (.internal "rng lock poisoned")) s
  /-- there is no key -/
  | keyless : s.sealKey.length ≠ 32 → Sends S s g plain (.error (.internal "aead key")) s
  /-- the payload cannot be encrypted -/
  | refused {counter : UInt64} {e : ChannelError} : s.nextOutgoing = .ok counter →
    Frame.encrypt S s.sealKey s.keyId s.environment s.role.outgoing counter (S.draw 4 g).1 plain =
      .error e → Sends S s g plain (.error e) s

/-- What comes of a byte string if numbers have no bound, and what the session is then. -/
inductive Accepts (S : Suite ρ) (s : Session) (wire : Bytes) :
    Except ChannelError Bytes → Session → Prop
  /-- it is no frame -/
  | unread {e : ChannelError} : Frame.parse wire = .error e → Accepts S s wire (.error e) s
  /-- the numbers of frames are used up -/
  | exhausted {frame : Frame} : Frame.parse wire = .ok frame → s.received.toNat + 1 = 2 ^ 64 →
    Accepts S s wire (.error (.internal "response counter exhausted")) s
  /-- the frame is not the next one, or nobody asked for it -/
  | mismatch {frame : Frame} {expected : UInt64} : Frame.parse wire = .ok frame →
    expected.toNat = s.received.toNat + 1 →
    frame.counter ≠ expected ∨ (s.role = .initiator ∧ s.sent < frame.counter) →
    Accepts S s wire (.error (.counterMismatch expected frame.counter)) s
  /-- the frame is the next one, but there is no key -/
  | keyless {frame : Frame} : Frame.parse wire = .ok frame →
    frame.counter.toNat = s.received.toNat + 1 → s.openKey.length ≠ 32 →
    Accepts S s wire (.error (.internal "aead key")) s
  /-- it is refused for what is in it -/
  | refused {frame : Frame} {e : ChannelError} : Frame.parse wire = .ok frame →
    frame.counter.toNat = s.received.toNat + 1 →
    frame.decrypt S s.openKey s.keyId s.environment s.role.incoming = .error e →
    Accepts S s wire (.error e) s
  /-- it is opened -/
  | opened {frame : Frame} {plain : Bytes} : Frame.parse wire = .ok frame →
    frame.counter.toNat = s.received.toNat + 1 →
    frame.decrypt S s.openKey s.keyId s.environment s.role.incoming = .ok plain →
    Accepts S s wire (.ok plain) { s with received := frame.counter }

/-! ## One call -/

theorem toNat_lastCounter : lastCounter.toNat + 1 = 2 ^ 64 := by decide

theorem ne_lastCounter {n : UInt64} (h : n < counter) : n ≠ lastCounter := by
  rintro rfl
  have hbound := counter.toNat_lt
  have hlt := UInt64.lt_iff_toNat_lt.mp h
  have hmax := toNat_lastCounter
  omega

/-- Whatever is received, counting goes on to the last number and stops there. -/
theorem accepts_decrypt (s : Session) (S : Suite ρ) (wire : Bytes) :
    s.Accepts S wire ((decrypt S wire).run s).1 ((decrypt S wire).run s).2 := by
  rcases hrun : (decrypt S wire).run s with ⟨e | plain, s'⟩
  · obtain rfl : s' = s := (spares_decrypt S wire).eq hrun
    -- one case for each exit
    obtain hparse | ⟨frame, hparse, h⟩ := fails_decrypt.mp (congrArg Prod.fst hrun)
    · exact .unread hparse
    obtain ⟨hlast, rfl⟩ | ⟨hlast, h⟩ := h
    · exact .exhausted hparse (hlast ▸ toNat_lastCounter)
    have hnext := toNat_add_one hlast
    obtain ⟨hsequence, rfl⟩ | ⟨⟨hcounter, -⟩, h⟩ := h
    · exact .mismatch hparse hnext hsequence
    obtain ⟨hkey, rfl⟩ | ⟨-, hrefused⟩ := h
    · exact .keyless hparse (hcounter ▸ hnext) hkey
    · exact .refused hparse (hcounter ▸ hnext) hrefused
  · obtain ⟨frame, hparse, hlast, hcounter, -, -, hopened, rfl⟩ :=
      yields_decrypt.mp (.of_run hrun)
    exact .opened hparse (hcounter ▸ toNat_add_one hlast) hopened

theorem encrypt_of_error {e : ChannelError} (h : s.nextOutgoing = .error e) (S : Suite ρ) (g : ρ)
    (plain : Bytes) : (encrypt S plain).run (s, g) = (.error e, s, g) := by
  simp only [encrypt]
  show (liftM s.nextOutgoing >>= _ : Draw (Session × ρ) Frame).run (s, g) = _
  rw [h]
  rfl

/-- With a number for it, a frame is sealed under that number, unless nothing can be drawn, there is
no key, or the payload cannot be encrypted. -/
theorem sends_of_ok (h : s.nextOutgoing = .ok counter) (S : Suite ρ) (g : ρ) (plain : Bytes)
    (hsealed : ∀ frame : Frame, frame.counter = counter →
      s.Sends S g plain (.ok frame) { s with sent := frame.counter }) :
    s.Sends S g plain ((encrypt S plain).run (s, g)).1 ((encrypt S plain).run (s, g)).2.1 := by
  rcases hrun : (encrypt S plain).run (s, g) with ⟨e | frame, s', g'⟩
  · obtain rfl : s' = s := (spares_encrypt S plain).eq hrun
    obtain hnext | ⟨counter', hcounter, h⟩ := fails_encrypt.mp (congrArg Prod.fst hrun)
    · cases h.symm.trans hnext
    obtain ⟨hpoisoned, rfl⟩ | ⟨-, h⟩ := h
    · exact .poisoned hpoisoned
    obtain ⟨hkey, rfl⟩ | ⟨-, hrefused⟩ := h
    · exact .keyless hkey
    · exact .refused hcounter hrefused
  · obtain ⟨-, hcounter, rfl⟩ := Party.madeBy_of_yields (.of_run hrun) []
    exact hsealed frame (Except.ok.inj (hcounter.symm.trans h))

/-- The refusal of a responder that has answered all there can be names the number after the last
one, which wraps. -/
theorem encrypt_of_spent (h : s.Spent) (S : Suite ρ) (g : ρ) (plain : Bytes) :
    (encrypt S plain).run (s, g) = (.error (.counterMismatch 0 lastCounter), s, g) := by
  obtain ⟨hrole, hsent, hreceived⟩ := h
  refine encrypt_of_error ?_ S g plain
  rw [nextOutgoing, hrole, hsent, hreceived]
  rfl

/-- Whatever is to be sealed, counting goes on to the last number and stops there. -/
theorem sends_encrypt (hs : s.Attainable) (hleft : ¬ s.Spent) (S : Suite ρ) (g : ρ)
    (plain : Bytes) :
    s.Sends S g plain ((encrypt S plain).run (s, g)).1 ((encrypt S plain).run (s, g)).2.1 := by
  cases hrole : s.role with
  | initiator =>
    by_cases hlast : s.sent = lastCounter
    · have hnext : s.nextOutgoing = .error (.internal "request counter exhausted") := by
        simp only [nextOutgoing, hrole, if_pos hlast]
      rw [encrypt_of_error hnext]
      exact .exhausted hrole (hlast ▸ toNat_lastCounter)
    · have hnext := nextOutgoing_eq_ok.mpr (.inl ⟨hrole, hlast, rfl⟩)
      exact sends_of_ok hnext S g plain fun frame hcounter =>
        .request hrole (hcounter ▸ toNat_add_one hlast)
  | responder =>
    by_cases hlt : s.sent < s.received
    · have hnext := nextOutgoing_eq_ok.mpr (.inr ⟨hrole, hlt, rfl⟩)
      exact sends_of_ok hnext S g plain fun frame hcounter => .answer hrole hlt hcounter
    · have heq : s.sent = s.received :=
        UInt64.le_antisymm (hs.ahead hrole) (UInt64.not_lt.mp hlt)
      have hnext : s.nextOutgoing = .error (.counterMismatch (s.sent + 1) s.received) := by
        simp only [nextOutgoing, hrole, if_neg hlt]
      have hlast : s.sent ≠ lastCounter := fun hlast => hleft ⟨hrole, hlast, heq ▸ hlast⟩
      rw [encrypt_of_error hnext]
      exact .answered hrole heq (toNat_add_one hlast)

/-! ## Any number of calls -/

open Party (Action)

/-- Some calls lead from one session to the other, whatever happened before. -/
def Leads (S : Suite ρ) (s s' : Session) : Prop :=
  ∃ actions : List (Action ρ), ∀ p : Party, p.session = s → (p.run S actions).session = s'

theorem Leads.refl (S : Suite ρ) (s : Session) : Leads S s s := ⟨[], fun _ hp => hp⟩

theorem Leads.trans (h : Leads S s s') (h' : Leads S s' s'') : Leads S s s'' := by
  obtain ⟨actions, hactions⟩ := h
  obtain ⟨actions', hactions'⟩ := h'
  refine ⟨actions ++ actions', fun p hp => ?_⟩
  have happend : p.run S (actions ++ actions') = (p.run S actions).run S actions' :=
    List.foldl_append
  rw [happend]
  exact hactions' _ (hactions p hp)

/-- A session seals under its next number, if the primitives serve for a payload of one byte. -/
theorem leads_sent (hserves : S.Serves 2) (g : ρ) (hkey : s.sealKey.length = 32)
    (hnext : s.nextOutgoing = .ok counter) : Leads S s { s with sent := counter } := by
  refine ⟨[.encrypt g []], fun p hp => ?_⟩
  subst hp
  obtain ⟨made, -, -, -, hstep⟩ :=
    Party.encrypt_eq hserves hnext hkey g (show ([] : Bytes).length < 2 by decide)
  exact congrArg Party.session hstep

/-- A frame can be made under any number, whether or not a session has come to it. -/
theorem exists_madeBy (hserves : S.Serves 2) (hkey : s.sealKey.length = 32) (counter : UInt64) :
    ∃ made : Sealed, made.MadeBy S s ∧ made.frame.counter = counter ∧ made.plain = [0] := by
  obtain ⟨frame, hmade⟩ := Frame.exists_encrypt hserves hkey s.keyId s.environment s.role.outgoing
    counter (Vector.replicate 4 0) (show ([0] : Bytes).length < 2 by decide)
  have hcounter : frame.counter = counter :=
    congrArg Frame.counter (Frame.encrypt_eq_ok.mp hmade).2
  subst hcounter
  exact ⟨{ frame, plain := [0], accepted := [] }, ⟨hkey, Vector.replicate 4 0, hmade⟩, rfl, rfl⟩

/-- So the other end could have sealed the next frame. -/
theorem leads_received (hserves : S.Serves 2) (hinverts : S.Inverts) (htagged : S.Tagged)
    (hkeys : s.openKey.length = 32 ∧ s.keyId.length = 32) (hlast : s.received ≠ lastCounter)
    (hasked : s.role = .initiator → s.received < s.sent) :
    Leads S s { s with received := s.received + 1 } := by
  obtain ⟨sender, hfeeds, hkey⟩ : ∃ sender : Session, sender.Feeds s ∧ sender.sealKey.length = 32 :=
    ⟨{ s with role := s.role.peer, sealKey := s.openKey },
      ⟨(Role.peer_peer s.role).symm, rfl, ⟨rfl, hkeys.2⟩, rfl⟩, hkeys.1⟩
  obtain ⟨made, hmade, hcounter, hplain⟩ := exists_madeBy hserves hkey (s.received + 1)
  have hne : made.plain ≠ [] := hplain ▸ List.cons_ne_nil _ _
  have hsent : s.role = .initiator → made.frame.counter ≤ s.sent := by
    intro hrole
    rw [hcounter, UInt64.le_iff_toNat_le, toNat_add_one hlast]
    exact UInt64.lt_iff_toNat_lt.mp (hasked hrole)
  have hresult := hmade.decrypt_eq hinverts htagged hfeeds hne hlast hcounter hsent
  rw [hcounter] at hresult
  refine ⟨[.decrypt made.frame.toBytes], fun p hp => ?_⟩
  simp only [Party.run, List.foldl_cons, List.foldl_nil, Party.step, Party.decrypt, hp,
    hresult.run_eq]

/-- Counting up goes on to any number if it goes on by one. -/
theorem Leads.count {f : UInt64 → Session} {n : UInt64} (h : n ≤ counter)
    (hstep : ∀ n < counter, Leads S (f n) (f (n + 1))) : Leads S (f n) (f counter) := by
  obtain ⟨k, hk⟩ := Nat.exists_eq_add_of_le (UInt64.le_iff_toNat_le.mp h)
  clear h
  induction k generalizing n with
  | zero =>
    obtain rfl : counter = n := UInt64.toNat_inj.mp hk
    exact .refl S (f counter)
  | succ k ih =>
    have hlt : n < counter := by
      rw [UInt64.lt_iff_toNat_lt]
      omega
    have hmore : counter.toNat = (n + 1).toNat + k := by
      rw [hk, toNat_add_one (ne_lastCounter hlt)]
      omega
    exact (hstep n hlt).trans (ih hmore)

/-- An initiator can send requests up to any number. -/
theorem leads_sending (hserves : S.Serves 2) (g : ρ) (hrole : s.role = .initiator)
    (hkey : counter ≠ 0 → s.sealKey.length = 32) (h : s.sent ≤ counter) :
    Leads S s { s with sent := counter } := by
  refine Leads.count (f := fun n => { s with sent := n }) h fun n hlt => ?_
  have hne := UInt64.pos_iff_ne_zero.mp (UInt64.lt_of_le_of_lt UInt64.zero_le hlt)
  have hnext : { s with sent := n }.nextOutgoing = .ok (n + 1) :=
    nextOutgoing_eq_ok.mpr (.inl ⟨hrole, ne_lastCounter hlt, rfl⟩)
  exact leads_sent hserves g (hkey hne) hnext

/-- Frames can be accepted up to any number, by an initiator up to the last one it sent. -/
theorem leads_receiving (hserves : S.Serves 2) (hinverts : S.Inverts) (htagged : S.Tagged)
    (hkeys : counter ≠ 0 → s.openKey.length = 32 ∧ s.keyId.length = 32) (h : s.received ≤ counter)
    (hasked : s.role = .initiator → counter ≤ s.sent) :
    Leads S s { s with received := counter } := by
  refine Leads.count (f := fun n => { s with received := n }) h fun n hlt => ?_
  have hne := UInt64.pos_iff_ne_zero.mp (UInt64.lt_of_le_of_lt UInt64.zero_le hlt)
  exact leads_received (s := { s with received := n }) hserves hinverts htagged (hkeys hne)
    (ne_lastCounter hlt) fun hrole => UInt64.lt_of_lt_of_le hlt (hasked hrole)

/-- A responder can give the answer to the last request. -/
theorem leads_answering (hserves : S.Serves 2) (g : ρ) (hrole : s.role = .responder)
    (hkey : s.received ≠ 0 → s.sealKey.length = 32) (hsent : s.sent = 0) :
    Leads S s { s with sent := s.received } := by
  by_cases hzero : s.received = 0
  · have hsame : { s with sent := s.received } = s :=
      congrArg (fun n => { s with sent := n }) (hzero.trans hsent.symm)
    exact hsame ▸ .refl S s
  · have hlt : s.sent < s.received := hsent ▸ UInt64.pos_iff_ne_zero.mpr hzero
    exact leads_sent hserves g (hkey hzero) (nextOutgoing_eq_ok.mpr (.inr ⟨hrole, hlt, rfl⟩))

/-- Calls lead to all counters that are attainable. -/
theorem leads_of_attainable (hserves : S.Serves 2) (hinverts : S.Inverts) (htagged : S.Tagged)
    (g : ρ) (hs : s.Attainable) : Leads S s.reset s := by
  cases hrole : s.role with
  | initiator =>
    -- all requests first, then the answers
    refine (leads_sending (s := s.reset) hserves g hrole hs.sealing UInt64.zero_le).trans ?_
    exact leads_receiving (s := { s with received := 0 }) hserves hinverts htagged hs.opening
      UInt64.zero_le hs.behind
  | responder =>
    -- the last answer as soon as there is its request, then the other requests
    have hle := hs.ahead hrole
    have hnot : s.role ≠ .initiator := fun h => nomatch hrole.symm.trans h
    have hopening (h : s.sent ≠ 0) : s.openKey.length = 32 ∧ s.keyId.length = 32 :=
      hs.opening fun hzero => h (UInt64.le_zero_iff.mp (hzero ▸ hle))
    refine (leads_receiving (s := s.reset) hserves hinverts htagged hopening UInt64.zero_le
      fun h => absurd h hnot).trans ?_
    refine (leads_answering (s := { s with sent := 0, received := s.sent }) hserves g hrole
      hs.sealing rfl).trans ?_
    exact leads_receiving (s := { s with received := s.sent }) hserves hinverts htagged hs.opening
      hle fun h => absurd h hnot

end Session

namespace Party

open Session (Equipped Attainable lastCounter)

variable {p : Party} {s : Session} {role : Role} {environment : Environment} {keys : SessionKeys}

theorem equipped_step (hp : p.session.Equipped) (S : Suite ρ) (action : Action ρ) :
    (p.step S action).session.Equipped := by
  cases action with
  | encrypt g plain =>
    rcases encrypt_cases (S := S) p g plain with heq | ⟨made, hmade, -, -, -, heq⟩
    · rwa [step, heq]
    · rw [step, heq]
      exact ⟨fun _ => hmade.1, hp.opening⟩
  | decrypt wire =>
    simp only [step, decrypt]
    rcases hresult : (Session.decrypt S wire).run p.session with ⟨e | plain, session⟩
    · obtain rfl : session = p.session := (Session.spares_decrypt S wire).eq hresult
      exact hp
    · obtain ⟨frame, hparse, -, -, -, hkey, hopened, rfl⟩ :=
        Session.yields_decrypt.mp (.of_run hresult)
      obtain ⟨-, -, -, hkeyId, -⟩ := Frame.decrypt_eq_ok.mp hopened
      have hwhole := (Frame.parse_eq_ok.mp hparse).1
      exact ⟨hp.sealing, fun _ => ⟨hkey, hkeyId ▸ hwhole.keyId⟩⟩

theorem equipped_calls (hp : p.session.Equipped) (list : List (Suite ρ × Action ρ)) :
    (p.calls list).session.Equipped := by
  induction list generalizing p with
  | nil => exact hp
  | cons call list ih => exact ih (equipped_step hp call.1 call.2)

/-- All counters that calls lead to are attainable. -/
theorem attainable_calls (role : Role) (environment : Environment) (keys : SessionKeys)
    (list : List (Suite ρ × Action ρ)) :
    ((start role environment keys).calls list).session.Attainable := by
  have hp := (start_sequenced role environment keys).calls list
  have hequipped : (start role environment keys).session.Equipped :=
    ⟨fun h => absurd rfl h, fun h => absurd rfl h⟩
  exact { equipped_calls hequipped list with behind := hp.behind, ahead := hp.ahead }

/-- They can be attained with the primitives as they are. -/
theorem exists_run (hs : s.reset = Session.start role environment keys) (h : s.Attainable) :
    ∃ actions : List (Action Generator),
      ((start role environment keys).run .standard actions).session = s := by
  obtain ⟨actions, hactions⟩ := Session.leads_of_attainable (Suite.standard_serves 2)
    Suite.standard_inverts Suite.standard_tagged (Generator.ofSeed 0) h
  exact ⟨actions, hactions _ hs.symm⟩

/-- Any calls lead to attainable counters, and to all of these up to the last numbers. Wherever they
lead, the next call counts as if there were no bound, and reports that the numbers are used up where
they are: all but one. A responder that has answered the last request there can be refuses to seal
as it should, but names the number after the last one, which is none. -/
theorem exhaustion (role : Role) (environment : Environment) (keys : SessionKeys) :
    (∀ s : Session, s.reset = Session.start role environment keys → s.Attainable →
      ∃ actions : List (Action Generator),
        ((start role environment keys).run .standard actions).session = s) ∧
    ∀ (list : List (Suite ρ × Action ρ)) (S : Suite ρ),
      let s := ((start role environment keys).calls list).session
      s.reset = Session.start role environment keys ∧ s.Attainable ∧
      (∀ wire, s.Accepts S wire ((Session.decrypt S wire).run s).1
        ((Session.decrypt S wire).run s).2) ∧
      ∀ g plain,
        (¬ s.Spent → s.Sends S g plain ((Session.encrypt S plain).run (s, g)).1
          ((Session.encrypt S plain).run (s, g)).2.1) ∧
        (s.Spent → (Session.encrypt S plain).run (s, g) =
          (.error (.counterMismatch 0 lastCounter), s, g)) := by
  refine ⟨fun s hs h => exists_run hs h, fun list S => ?_⟩
  intro s
  have hs : s.Attainable := attainable_calls role environment keys list
  refine ⟨reset_calls _ list, hs, s.accepts_decrypt S, fun g plain => ⟨fun hleft => ?_, ?_⟩⟩
  · exact Session.sends_encrypt hs hleft S g plain
  · exact fun hspent => Session.encrypt_of_spent hspent S g plain

/-- An initiator can come to send its last request, and is told that there is no other. -/
theorem exhaustion_sample :
    ∃ actions : List (Action Generator),
      let s := ((start .initiator .testing .sample).run .standard actions).session
      s.sent = lastCounter ∧ s.received = 0 ∧ ∀ g plain,
        s.Sends .standard g plain ((Session.encrypt .standard plain).run (s, g)).1
          ((Session.encrypt .standard plain).run (s, g)).2.1 := by
  obtain ⟨hreached, hnext⟩ := exhaustion (ρ := Generator) .initiator .testing .sample
  let s : Session := { Session.start .initiator .testing .sample with sent := lastCounter }
  have hattainable : s.Attainable :=
    { sealing := fun _ => rfl, opening := fun h => absurd rfl h
      behind := fun _ => UInt64.zero_le, ahead := nofun }
  obtain ⟨actions, hactions⟩ := hreached s rfl hattainable
  have hcalls : ((start .initiator .testing .sample).calls
      (actions.map fun action => (.standard, action))).session = s := by
    rw [calls, List.foldl_map]
    exact hactions
  obtain ⟨-, -, -, hsends⟩ := hnext (actions.map fun action => (.standard, action)) .standard
  rw [hcalls] at hsends
  have hleft : ¬ s.Spent := fun h => nomatch h.1
  refine ⟨actions, ?_⟩
  rw [hactions]
  exact ⟨rfl, rfl, fun g plain => (hsends g plain).1 hleft⟩

/-- A responder can come to give its last answer. Asked for another one, it names a number that has
wrapped. -/
theorem wrapped_refusal :
    ∃ actions : List (Action Generator),
      let s := ((start .responder .testing .sample).run .standard actions).session
      s.sent = lastCounter ∧ s.received = lastCounter ∧ ∀ g plain,
        (Session.encrypt .standard plain).run (s, g) =
          (.error (.counterMismatch 0 lastCounter), s, g) ∧
        ¬ s.Sends .standard g plain ((Session.encrypt .standard plain).run (s, g)).1
          ((Session.encrypt .standard plain).run (s, g)).2.1 := by
  let s : Session := { Session.start .responder .testing .sample with
    sent := lastCounter, received := lastCounter }
  have hs : s.reset = Session.start .responder .testing .sample := rfl
  have hattainable : s.Attainable :=
    { sealing := fun _ => rfl, opening := fun _ => ⟨rfl, rfl⟩
      behind := nofun, ahead := fun _ => UInt64.le_refl _ }
  obtain ⟨actions, hactions⟩ := exists_run hs hattainable
  have hresult := Session.encrypt_of_spent (s := s) ⟨rfl, rfl, rfl⟩ .standard
  refine ⟨actions, ?_⟩
  rw [hactions]
  refine ⟨rfl, rfl, fun g plain => ⟨hresult g plain, ?_⟩⟩
  rw [hresult g plain]
  -- the number after the last one is not zero
  intro h
  cases h with
  | answered _ _ hexpected => exact absurd hexpected (by decide)
  | refused hnext _ => cases hnext

end Party

end SealedTunnel
