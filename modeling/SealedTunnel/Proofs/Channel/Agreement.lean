import SealedTunnel.Proofs.Channel.Completion

/-!
# Agreement on the transcript

An attacker delivers whatever it likes. If both sides still confirm the
handshake to each other, they have seen the same messages, although what is
hashed is a concatenation without lengths.

* `Initiator.Run`, `Responder.Run`, `Responder.Finish` — what one side sent and received.
* `Initiator.Run.Encrypted`, `Responder.Finish.Encrypted` — all that a side encrypted.
* `UnforgedInitiator`, `UnforgedResponder`, `Collide` — what an attacker cannot do.
* `Untouched` — a handshake without an attacker; `Honest.exists_untouched`.
* `split_transcript` — a transcript falls apart in one way only.
* `transcripts_agree` — what both sides know at the end.
-/

namespace SealedTunnel

open Cbor (Fits)
open Draw (Yields)

variable {ρ : Type} {S : Suite ρ}

/-! ## Runs -/

/-- What an initiator did up to message 3. As any byte string that a machine can hold, message 1 is
short enough for its length to be written. -/
structure Initiator.Run (S : Suite ρ) where
  /-- where the channel is to be used -/
  environment : Environment
  /-- the keys of this handshake -/
  own : KeyPair
  /-- message 2 as it was received -/
  message2 : Bytes
  /-- what was to be trusted -/
  decision : TrustDecision
  /-- the responder's keys, as they were trusted -/
  trusted : PublicKeys
  /-- the time -/
  now : UInt64
  /-- the generator before message 3 was made -/
  before : ρ
  /-- and after it -/
  after : ρ
  /-- message 1 has its place in memory -/
  small : Fits (Initiator.ofKeys environment own).message1
  /-- message 2 was opened -/
  opened : (Initiator.ofKeys environment own).receiveMessage2 S message2 = .ok decision
  /-- message 3 was made -/
  accepted : decision.Accepted S trusted now before after

namespace Initiator.Run

/-- Message 1 as it was sent. -/
def message1 (i : Initiator.Run S) : Bytes := (Initiator.ofKeys i.environment i.own).message1

/-- Message 3 as it was sent. -/
def message3 (i : Initiator.Run S) : Bytes := Wire.write i.accepted.message3

/-- What is waited for. -/
def awaited (i : Initiator.Run S) : Confirmation := i.accepted.awaited

/-- The initiator's transcript is what it sent and received. -/
theorem decision_eq (i : Initiator.Run S) :
    i.decision.message1 = i.message1 ∧ i.decision.message2 = i.message2 := by
  obtain ⟨_, _, _, _, _, -, -, -, -, -, heq⟩ := Initiator.receiveMessage2_eq_ok.mp i.opened
  rw [heq]
  exact ⟨rfl, rfl⟩

end Initiator.Run

/-- Every initiator that gets as far as message 3 has such a run. -/
theorem Initiator.exists_run {environment : Environment} {own : KeyPair} {message2 message3 : Bytes}
    {decision : TrustDecision} {trusted : PublicKeys} {now : UInt64} {g g' : ρ} {c : Confirmation}
    (hsmall : Fits (Initiator.ofKeys environment own).message1)
    (hopened : (Initiator.ofKeys environment own).receiveMessage2 S message2 = .ok decision)
    (haccepted : Yields (decision.accept S trusted now) g (c, message3) g') :
    ∃ i : Initiator.Run S, i.message1 = (Initiator.ofKeys environment own).message1 ∧
      i.message2 = message2 ∧ i.message3 = message3 ∧ i.awaited = c := by
  obtain ⟨accepted, rfl, rfl⟩ := TrustDecision.yields_accept.mp haccepted
  exact ⟨{
    environment, own, message2, decision, trusted, now, before := g, after := g'
    small := hsmall, opened := hopened, accepted }, rfl, rfl, rfl, rfl⟩

/-- What a responder did up to message 2, which has its place in memory too. -/
structure Responder.Run (S : Suite ρ) where
  /-- the responder -/
  responder : Responder
  /-- message 1 as it was received -/
  message1 : Bytes
  /-- the revocation status that was stapled -/
  ocsp : Bytes
  /-- the generator before message 2 was made -/
  before : ρ
  /-- and after it -/
  after : ρ
  /-- message 1 was answered -/
  answered : responder.Answered S message1 ocsp before after
  /-- message 2 has its place in memory -/
  small : Fits (Wire.write answered.message2)

namespace Responder.Run

/-- Message 2 as it was sent. -/
def message2 (r : Responder.Run S) : Bytes := Wire.write r.answered.message2

/-- What the responder keeps. -/
def handshake (r : Responder.Run S) : Handshake where
  first := r.answered.first
  transcript := r.message1 ++ r.message2

end Responder.Run

/-- Every responder that gets as far as message 2 has such a run. -/
theorem Responder.exists_run {r : Responder} {message1 ocsp message2 : Bytes}
    {handshake : Handshake} {g g' : ρ} (hsmall : Fits message2)
    (hanswered : Yields (r.receiveMessage1 S message1 ocsp) g (handshake, message2) g') :
    ∃ run : Responder.Run S, run.responder = r ∧ run.message1 = message1 ∧
      run.message2 = message2 ∧ run.handshake = handshake := by
  obtain ⟨answered, rfl, rfl⟩ := Responder.yields_receiveMessage1.mp hanswered
  exact ⟨{
    responder := r, message1, ocsp, before := g, after := g', answered, small := hsmall }, rfl, rfl,
    rfl, rfl⟩

/-- What a responder did when it accepted message 3. -/
structure Responder.Finish (r : Responder.Run S) where
  /-- message 3 as it was received -/
  message3 : Bytes
  /-- what was found in it -/
  accepted : r.responder.Accepted S r.handshake message3
  /-- the confirmation in message 4 -/
  confirmation : Bytes
  /-- the generator before it was made -/
  before : ρ
  /-- and after it -/
  after : ρ
  /-- it was made -/
  confirmed : Yields (Envelope.encrypt S accepted.keys.confirmToInitiator
    (S.hash (r.handshake.transcript ++ message3))) before confirmation after

/-- Every responder that accepts message 3 finishes in this way. -/
theorem Responder.Run.exists_finish {r : Responder.Run S} {message3 message4 : Bytes}
    {now : UInt64} {timed : TimedSession} {g g' : ρ}
    (h : Yields (r.responder.receiveMessage3 S r.handshake message3 now) g (timed, message4) g') :
    ∃ f : Responder.Finish r, f.message3 = message3 ∧
      message4 = Wire.write { messageType := "M4", confirmation := f.confirmation : Message4 } ∧
      timed.session = Session.start .responder r.responder.environment f.accepted.keys := by
  obtain ⟨accepted, confirmation, hconfirmed, rfl, rfl⟩ := Responder.yields_receiveMessage3.mp h
  exact ⟨{
    message3, accepted, confirmation, before := g, after := g', confirmed := hconfirmed }, rfl, rfl,
    rfl⟩

/-! ## What is encrypted -/

/-- With which key an initiator encrypts what, and what comes out. -/
inductive Initiator.Run.Encrypted (i : Initiator.Run S) : Bytes → Bytes → Bytes → Prop
  /-- the inner layer of message 3 -/
  | inner : i.Encrypted i.decision.handshakeKeys.toResponder (Wire.write i.accepted.second.inner)
      i.accepted.sealedInner
  /-- its confirmation -/
  | confirmation : i.Encrypted i.accepted.keys.confirmToResponder
      (S.hash (i.message1 ++ i.message2 ++ i.accepted.sealedInner)) i.accepted.confirmation

/-- With which key a responder encrypts what, and what comes out. -/
inductive Responder.Finish.Encrypted {r : Responder.Run S} (f : Responder.Finish r) :
    Bytes → Bytes → Bytes → Prop
  /-- the signed keys in message 2 -/
  | signedKeys : f.Encrypted r.answered.handshakeKeys.toInitiator
      (Wire.write { r.responder.signed with ocsp := r.ocsp }) r.answered.sealedKeys
  /-- the confirmation in message 4 -/
  | confirmation : f.Encrypted f.accepted.keys.confirmToInitiator
      (S.hash (r.handshake.transcript ++ f.message3)) f.confirmation

section

variable {i : Initiator.Run S} {r : Responder.Run S} {f : Responder.Finish r}
  {key plain envelope : Bytes}

/-- All of it was made by encryption. -/
theorem Initiator.Run.Encrypted.exists_yields (h : i.Encrypted key plain envelope) :
    ∃ g g', Yields (Envelope.encrypt S key plain) g envelope g' := by
  obtain ⟨h1, h2⟩ := i.decision_eq
  cases h with
  | inner => exact ⟨_, _, i.accepted.encrypted⟩
  | confirmation =>
    rw [← h1, ← h2]
    exact ⟨_, _, i.accepted.confirmed⟩

theorem Responder.Finish.Encrypted.exists_yields (h : f.Encrypted key plain envelope) :
    ∃ g g', Yields (Envelope.encrypt S key plain) g envelope g' := by
  cases h with
  | signedKeys => exact ⟨_, _, r.answered.encrypted⟩
  | confirmation => exact ⟨_, _, f.confirmed⟩

/-- The inner layer of message 3 is longer than a hash: this takes its names and those of the point
in it. -/
theorem Encapsulation.lt_length_inner (second : Encapsulation) :
    32 < (Wire.write second.inner).length := by
  have hinner : _ < (Wire.write second.inner).length := Cbor.lt_length_writeRecord _
  have hpoint : _ < (Wire.write second.inner.point).length := Cbor.lt_length_writeRecord _
  have hciphertext : (Bytes.ofString "Kyber768_ct").length = 11 := by decide
  have hagreement : (Bytes.ofString "ECDH_ct").length = 7 := by decide
  have hflags : (Bytes.ofString "ERP").length = 3 ∧ (Bytes.ofString "ESO").length = 3 := by decide
  have hcurve : (Bytes.ofString "crv").length = 3 := by decide
  simp only [List.map_cons, List.map_nil, List.sum_cons, List.sum_nil] at hinner hpoint
  omega

/-- And so are the signed keys. -/
theorem SignedKeys.lt_length_write (signed : SignedKeys) : 32 < (Wire.write signed).length := by
  have hsigned : _ < (Wire.write signed).length := Cbor.lt_length_writeRecord _
  have hpayload : (Bytes.ofString "signed_pub_keys").length = 15 := by decide
  have hsignature : (Bytes.ofString "signature-ES256").length = 15 := by decide
  simp only [List.map_cons, List.map_nil, List.sum_cons, List.sum_nil] at hsigned
  omega

/-- What has the size of a hash is the confirmation. -/
theorem Initiator.Run.Encrypted.plain_eq (h : i.Encrypted key plain envelope)
    (hlength : plain.length = 32) :
    plain = S.hash (i.message1 ++ i.message2 ++ i.accepted.sealedInner) := by
  cases h with
  | inner =>
    have hlt := i.accepted.second.lt_length_inner
    omega
  | confirmation => rfl

theorem Responder.Finish.Encrypted.plain_eq (h : f.Encrypted key plain envelope)
    (hlength : plain.length = 32) : plain = S.hash (r.handshake.transcript ++ f.message3) := by
  cases h with
  | signedKeys =>
    have hlt := SignedKeys.lt_length_write { r.responder.signed with ocsp := r.ocsp }
    omega
  | confirmation => rfl

end

/-! ## Agreement -/

/-- Two byte strings that are different and have the same hash. -/
def Collide (S : Suite ρ) (x y : Bytes) : Prop := x ≠ y ∧ S.hash x = S.hash y

theorem eq_of_not_collide {x y : Bytes} (h : ¬ Collide S x y) (hhash : S.hash x = S.hash y) :
    x = y :=
  Decidable.by_contra fun hne => h ⟨hne, hhash⟩

/-- The confirmation in message 3 opens only as something that the initiator encrypted with this
key. -/
def UnforgedInitiator (i : Initiator.Run S) {r : Responder.Run S} (f : Responder.Finish r) : Prop :=
  ∀ plain, Envelope.decrypt S "message 3 key confirmation" f.accepted.keys.confirmToResponder
      f.accepted.message.confirmation = .ok plain →
    i.Encrypted f.accepted.keys.confirmToResponder plain f.accepted.message.confirmation

/-- The confirmation in message 4 opens only as something that the responder encrypted with this
key. -/
def UnforgedResponder (i : Initiator.Run S) {r : Responder.Run S} (f : Responder.Finish r)
    (message4 : Bytes) : Prop :=
  ∀ (m : Message4) (plain : Bytes), decodeMessage "M4" 4 message4 = .ok m →
    Envelope.decrypt S "message 4" i.awaited.keys.confirmToInitiator m.confirmation = .ok plain →
    f.Encrypted i.awaited.keys.confirmToInitiator plain m.confirmation

/-- A transcript falls apart in one way only. Both message 1 and message 2 were written by one side
and accepted by the other, so they are taken as a whole by the same reader. -/
theorem split_transcript (i : Initiator.Run S) (r : Responder.Run S) {s t : Bytes}
    (h : i.message1 ++ i.message2 ++ s = r.message1 ++ r.message2 ++ t) :
    i.message1 = r.message1 ∧ i.message2 = r.message2 ∧ s = t := by
  rw [List.append_assoc, List.append_assoc] at h
  -- message 1 was written by the initiator and accepted by the responder
  have hsent1 := Wire.roundTrips_message1 _ 125 i.small
  have hreceived1 := decodeMessage_takes Wire.local_message1 r.answered.decoded
  obtain ⟨h1, -, hrest⟩ := hsent1.unique hreceived1 h
  -- message 2 the other way round
  obtain ⟨m, _, _, _, _, hdecoded, -⟩ := Initiator.receiveMessage2_eq_ok.mp i.opened
  have hreceived2 := decodeMessage_takes Wire.local_message2 hdecoded
  have hsent2 := Wire.roundTrips_message2 _ 125 r.small
  obtain ⟨h2, -, htail⟩ := hreceived2.unique hsent2 hrest
  exact ⟨h1, h2, htail⟩

/-- If the responder accepts a message 3, both sides have seen the same messages 1 and 2, and the
inner layer of message 3 is the one that was sent. If the initiator then accepts a message 4, all of
message 3 is. The attacker chose what was delivered, but it did not forge a confirmation, and no two
of the byte strings that were hashed collide. -/
theorem transcripts_agree (hhash : ∀ b, (S.hash b).length = 32) {i : Initiator.Run S}
    {r : Responder.Run S} {f : Responder.Finish r} (hunforged : UnforgedInitiator i f)
    (hcollide : ¬ Collide S (i.message1 ++ i.message2 ++ i.accepted.sealedInner)
      (r.message1 ++ r.message2 ++ f.accepted.message.sealedInner)) :
    i.message1 = r.message1 ∧ i.message2 = r.message2 ∧
    f.accepted.message.sealedInner = i.accepted.sealedInner ∧
    ∀ (message4 : Bytes) (session : Session), UnforgedResponder i f message4 →
      ¬ Collide S (i.message1 ++ i.message2 ++ i.message3)
        (r.message1 ++ r.message2 ++ f.message3) →
      i.awaited.receiveMessage4 S message4 = .ok session → i.message3 = f.message3 := by
  -- the responder compared the hash it opened with the hash of what it has seen
  have hplain := (hunforged _ f.accepted.confirmed).plain_eq (hhash _)
  obtain ⟨h1, h2, hinner⟩ := split_transcript i r (eq_of_not_collide hcollide hplain.symm)
  refine ⟨h1, h2, hinner.symm, ?_⟩
  intro message4 session hunforged' hcollide' hreceived
  obtain ⟨m, hdecoded, hopened, -⟩ := Confirmation.receiveMessage4_eq_ok.mp hreceived
  obtain ⟨hd1, hd2⟩ := i.decision_eq
  have hexpected : i.awaited.expected = S.hash (i.message1 ++ i.message2 ++ i.message3) := by
    rw [← hd1, ← hd2]
    rfl
  -- and so did the initiator, with all of message 3 in its hash
  have hplain' := (hunforged' m _ hdecoded hopened).plain_eq (hexpected ▸ hhash _)
  rw [hexpected] at hplain'
  obtain ⟨-, -, h3⟩ := split_transcript i r (eq_of_not_collide hcollide' hplain')
  exact h3

/-- Nothing was changed on the way, and both sides ended with the same keys. -/
structure Untouched (i : Initiator.Run S) {r : Responder.Run S} (f : Responder.Finish r) :
    Prop where
  /-- message 1 arrived as it was sent -/
  message1 : r.message1 = i.message1
  /-- and so did message 2 -/
  message2 : r.message2 = i.message2
  /-- and message 3 -/
  message3 : f.message3 = i.message3
  /-- the keys are the same -/
  keys : f.accepted.keys = i.accepted.keys

section

variable {environment : Environment} {own : KeyPair} {r : Responder} {keys : PublicKeys}
  {ocsp : Bytes} {now : UInt64} {g₁ g₂ : ρ}

/-- Honest parties have such a handshake, and the initiator accepts message 4. -/
theorem Honest.exists_untouched (h : Honest S environment own r keys ocsp now g₁ g₂) (g₃ : ρ) :
    ∃ (i : Initiator.Run S) (run : Responder.Run S) (f : Responder.Finish run) (session : Session),
      let sent : Message4 := { messageType := "M4", confirmation := f.confirmation }
      Untouched i f ∧ f.accepted.message = i.accepted.message3 ∧
      decodeMessage "M4" 4 (Wire.write sent) = .ok sent ∧
      i.awaited.receiveMessage4 S (Wire.write sent) = .ok session := by
  obtain ⟨g₁', answered, hfirst, hkey, hsmall, hopened⟩ := h.exists_decision
  obtain ⟨g₂', accepted, found, hmessage, hkeys, hkey'⟩ := h.exists_accepted hfirst hkey
    answered.derived (Initiator.ofKeys environment own).message1 (Wire.write answered.message2)
    { r.signed with ocsp }
  obtain ⟨confirmation, g₃', hconfirmation, hdecoded, hsession⟩ :=
    h.exists_confirmed g₃ (c := accepted.awaited) hkey' rfl
  have hsame : accepted.awaited.keys = found.keys := hkeys.symm
  let i : Initiator.Run S := {
    environment, own, message2 := Wire.write answered.message2, decision := _, trusted := keys, now
    before := g₂, after := g₂', small := Message1.fits h.initiator environment, opened := hopened
    accepted }
  let run : Responder.Run S := {
    responder := r, message1 := i.message1, ocsp, before := g₁, after := g₁', answered
    small := hsmall }
  let f : Responder.Finish run := {
    message3 := i.message3, accepted := found, confirmation, before := g₃, after := g₃'
    confirmed := hsame ▸ hconfirmation }
  exact ⟨i, run, f, _, ⟨rfl, rfl, rfl, hkeys⟩, hmessage, hdecoded, hsession⟩

/-- Honest parties have such runs, and nothing is forged in them. -/
theorem Honest.exists_runs (h : Honest S environment own r keys ocsp now g₁ g₂) (g₃ : ρ) :
    ∃ (i : Initiator.Run S) (run : Responder.Run S) (f : Responder.Finish run) (message4 : Bytes)
      (session : Session),
      i.awaited.receiveMessage4 S message4 = .ok session ∧ run.message1 = i.message1 ∧
      run.message2 = i.message2 ∧ f.message3 = i.message3 ∧
      f.accepted.message = i.accepted.message3 ∧ UnforgedInitiator i f ∧
      UnforgedResponder i f message4 := by
  obtain ⟨i, run, f, session, ⟨h1, h2, h3, hkeys⟩, hm, hdecoded, hsession⟩ := h.exists_untouched g₃
  refine ⟨i, run, f, _, session, hsession, h1, h2, h3, hm, ?_, ?_⟩
  · intro plain hplain
    obtain rfl := Except.ok.inj (hplain.symm.trans f.accepted.confirmed)
    have htranscript : run.handshake.transcript = i.message1 ++ i.message2 := by
      rw [← h1, ← h2]
      rfl
    rw [hkeys, hm, htranscript]
    exact .confirmation
  · intro m plain hreceived hplain
    obtain rfl := Except.ok.inj (hreceived.symm.trans hdecoded)
    have hsent := Envelope.decrypt_of_yields h.inverts h.sized.tagged f.confirmed "message 4"
    have hi : i.awaited.keys = f.accepted.keys := hkeys.symm
    rw [hi] at hplain ⊢
    obtain rfl := Except.ok.inj (hplain.symm.trans hsent)
    exact .confirmation

end

/-- The sample parties agree. -/
theorem transcripts_agree_sample :
    let kyber := Kyber.generate (Bytes.ofNat 64 1)
    let S := Suite.sample (Kyber.encapsulate kyber.1 (oneBytes 32).toList)
    ∃ (i : Initiator.Run S) (r : Responder.Run S) (f : Responder.Finish r) (message4 : Bytes)
      (session : Session),
      (∀ b, (S.hash b).length = 32) ∧ UnforgedInitiator i f ∧
      ¬ Collide S (i.message1 ++ i.message2 ++ i.accepted.sealedInner)
        (r.message1 ++ r.message2 ++ f.accepted.message.sealedInner) ∧
      UnforgedResponder i f message4 ∧
      ¬ Collide S (i.message1 ++ i.message2 ++ i.message3)
        (r.message1 ++ r.message2 ++ f.message3) ∧
      i.awaited.receiveMessage4 S message4 = .ok session ∧
      i.message1 = r.message1 ∧ i.message2 = r.message2 ∧
      f.accepted.message.sealedInner = i.accepted.sealedInner ∧ i.message3 = f.message3 := by
  intro kyber S
  have honest := honest_sample (Kyber.length_generate (Bytes.ofNat 64 1)) rfl (Generator.ofSeed 7)
  obtain ⟨i, r, f, message4, session, hreceived, h1, h2, h3, hm, hunforged, hunforged'⟩ :=
    honest.exists_runs (Generator.ofSeed 7)
  have hcollide : ¬ Collide S (i.message1 ++ i.message2 ++ i.accepted.sealedInner)
      (r.message1 ++ r.message2 ++ f.accepted.message.sealedInner) := by
    rw [h1, h2, hm]
    exact fun h => h.1 rfl
  have hcollide' : ¬ Collide S (i.message1 ++ i.message2 ++ i.message3)
      (r.message1 ++ r.message2 ++ f.message3) := by
    rw [h1, h2, h3]
    exact fun h => h.1 rfl
  have hhash : ∀ b, (S.hash b).length = 32 := Suite.sample_sized.hash
  obtain ⟨hm1, hm2, hinner, hm3⟩ := transcripts_agree hhash hunforged hcollide
  exact ⟨i, r, f, message4, session, hhash, hunforged, hcollide, hunforged', hcollide', hreceived,
    hm1, hm2, hinner, hm3 message4 session hunforged' hcollide' hreceived⟩

end SealedTunnel
