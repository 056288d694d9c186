import SealedTunnel.Channel.Initiator
import SealedTunnel.Channel.Responder
import SealedTunnel.Proofs.Channel.Draw
import SealedTunnel.Proofs.Channel.Wire

/-!
# The steps of a handshake

What each step computes when it succeeds, and from what: one statement for each.

* `Responder.Answered`, `TrustDecision.Accepted`, `Responder.Accepted` — all that happens in a step.
* `Responder.yields_receiveMessage1`, `TrustDecision.yields_accept`,
  `Responder.yields_receiveMessage3` — the step succeeds in this way and in no other.
* `Initiator.receiveMessage2_eq_ok`, `Confirmation.receiveMessage4_eq_ok` — steps without draws.
-/

namespace SealedTunnel

open Draw (Yields yields_bind yields_pure yields_lift_bind yields_guard not_yields_throw)

variable {ρ : Type} {S : Suite ρ} {g g' : ρ}

/-- How the responder answers message 1. -/
structure Responder.Answered (S : Suite ρ) (r : Responder) (message1 ocsp : Bytes) (g g' : ρ) where
  /-- the message -/
  message : Message1
  /-- the encapsulation to the initiator's keys -/
  first : Encapsulation
  /-- the generator after it was made -/
  g₁ : ρ
  /-- the keys that follow from it -/
  handshakeKeys : HandshakeKeys
  /-- the responder's signed keys, encrypted -/
  sealedKeys : Bytes
  /-- the message is well-formed -/
  decoded : decodeMessage "M1" 1 message1 = .ok message
  /-- the encapsulation was made -/
  created : Yields (Encapsulation.create S message.point message.kyber) g first g₁
  /-- the keys follow from it -/
  derived : HandshakeKeys.derive S first = .ok handshakeKeys
  /-- the signed keys were encrypted -/
  encrypted : Yields (Envelope.encrypt S handshakeKeys.toInitiator
    (Wire.write { r.signed with ocsp })) g₁ sealedKeys g'

/-- Message 2. -/
def Responder.Answered.message2 {r : Responder} {message1 ocsp : Bytes}
    (a : r.Answered S message1 ocsp g g') : Message2 where
  messageType := "M2"
  point := a.first.point
  ciphertext := a.first.ciphertext
  sealedKeys := a.sealedKeys

theorem Responder.yields_receiveMessage1 {r : Responder} {message1 ocsp message2 : Bytes}
    {handshake : Handshake} :
    Yields (r.receiveMessage1 S message1 ocsp) g (handshake, message2) g' ↔
      ∃ a : r.Answered S message1 ocsp g g', message2 = Wire.write a.message2 ∧
        handshake = { first := a.first, transcript := message1 ++ message2 } := by
  simp only [receiveMessage1, write_staple]
  constructor
  · intro h
    obtain ⟨message, decoded, h⟩ := yields_lift_bind.mp h
    obtain ⟨first, g₁, created, h⟩ := yields_bind.mp h
    obtain ⟨handshakeKeys, derived, h⟩ := yields_lift_bind.mp h
    obtain ⟨sealedKeys, g₃, encrypted, h⟩ := yields_bind.mp h
    obtain ⟨hresult, rfl⟩ := yields_pure.mp h
    obtain ⟨rfl, rfl⟩ := Prod.mk.inj hresult
    exact ⟨{
      message, first, g₁, handshakeKeys, sealedKeys, decoded, created, derived, encrypted }, rfl,
      rfl⟩
  · rintro ⟨a, rfl, rfl⟩
    refine yields_lift_bind.mpr ⟨a.message, a.decoded, ?_⟩
    refine yields_bind.mpr ⟨a.first, a.g₁, a.created, ?_⟩
    refine yields_lift_bind.mpr ⟨a.handshakeKeys, a.derived, ?_⟩
    exact yields_bind.mpr ⟨a.sealedKeys, g', a.encrypted, yields_pure.mpr ⟨rfl, rfl⟩⟩

theorem Initiator.receiveMessage2_eq_ok {i : Initiator} {message2 : Bytes} {t : TrustDecision} :
    i.receiveMessage2 S message2 = .ok t ↔
      ∃ (m : Message2) (first : Encapsulation) (handshakeKeys : HandshakeKeys) (payload : Bytes)
        (signed : SignedKeys),
        decodeMessage "M2" 2 message2 = .ok m ∧
        Encapsulation.recover S i.keys m.point m.ciphertext = .ok first ∧
        HandshakeKeys.derive S first = .ok handshakeKeys ∧
        Envelope.decrypt S "message 2" handshakeKeys.toInitiator m.sealedKeys = .ok payload ∧
        Wire.decode payload = .ok signed ∧
        t = {
          environment := i.environment, message1 := i.message1, message2, first, handshakeKeys
          signed } := by
  simp only [receiveMessage2]
  constructor
  · intro h
    obtain ⟨m, hm, h⟩ := bind_eq_ok.mp h
    obtain ⟨first, hfirst, h⟩ := bind_eq_ok.mp h
    obtain ⟨handshakeKeys, hkeys, h⟩ := bind_eq_ok.mp h
    obtain ⟨payload, hpayload, h⟩ := bind_eq_ok.mp h
    split at h
    · exact nomatch h
    · rename_i signed hsigned
      obtain rfl := Except.ok.inj h
      exact ⟨m, first, handshakeKeys, payload, signed, hm, hfirst, hkeys, hpayload, hsigned, rfl⟩
  · rintro ⟨m, first, handshakeKeys, payload, signed, hm, hfirst, hkeys, hpayload, hsigned, rfl⟩
    refine bind_eq_ok.mpr ⟨m, hm, bind_eq_ok.mpr ⟨first, hfirst, ?_⟩⟩
    refine bind_eq_ok.mpr ⟨handshakeKeys, hkeys, bind_eq_ok.mpr ⟨payload, hpayload, ?_⟩⟩
    rw [hsigned]
    rfl

/-- What the initiator encrypts in message 3. -/
def Encapsulation.inner (second : Encapsulation) : Message3Inner where
  point := second.point
  ciphertext := second.ciphertext
  erp := false
  eso := false

/-- How the initiator goes on when the responder's keys are trusted. -/
structure TrustDecision.Accepted (S : Suite ρ) (t : TrustDecision) (trusted : PublicKeys)
    (now : UInt64) (g g' : ρ) where
  /-- the encapsulation to the responder's keys -/
  second : Encapsulation
  /-- the generator after it was made -/
  g₁ : ρ
  /-- the keys that follow from both encapsulations -/
  keys : SessionKeys
  /-- the inner layer of message 3, encrypted -/
  sealedInner : Bytes
  /-- the generator after it was encrypted -/
  g₂ : ρ
  /-- the initiator's confirmation of the handshake -/
  confirmation : Bytes
  /-- the responder's keys have not expired -/
  valid : ¬ trusted.expiry < now
  /-- the encapsulation was made -/
  created : Yields (Encapsulation.create S trusted.point trusted.kyber) g second g₁
  /-- the keys follow from both -/
  scheduled : SessionKeys.derive S t.first second = .ok keys
  /-- the inner layer was encrypted -/
  encrypted : Yields (Envelope.encrypt S t.handshakeKeys.toResponder (Wire.write second.inner)) g₁
    sealedInner g₂
  /-- the handshake is confirmed as the initiator knows it -/
  confirmed : Yields (Envelope.encrypt S keys.confirmToResponder
    (S.hash (t.message1 ++ t.message2 ++ sealedInner))) g₂ confirmation g'

namespace TrustDecision.Accepted

variable {t : TrustDecision} {trusted : PublicKeys} {now : UInt64}

/-- Message 3. -/
def message3 (a : t.Accepted S trusted now g g') : Message3 where
  messageType := "M3"
  sealedInner := a.sealedInner
  confirmation := a.confirmation

/-- What the initiator waits for. -/
def awaited (a : t.Accepted S trusted now g g') : Confirmation where
  environment := t.environment
  keys := a.keys
  expected := S.hash (t.message1 ++ t.message2 ++ Wire.write a.message3)

end TrustDecision.Accepted

theorem TrustDecision.yields_accept {t : TrustDecision} {trusted : PublicKeys} {now : UInt64}
    {c : Confirmation} {message3 : Bytes} :
    Yields (t.accept S trusted now) g (c, message3) g' ↔
      ∃ a : t.Accepted S trusted now g g', message3 = Wire.write a.message3 ∧ c = a.awaited := by
  simp only [accept]
  constructor
  · intro h
    obtain ⟨valid, h⟩ := yields_guard.mp h
    obtain ⟨second, g₁, created, h⟩ := yields_bind.mp h
    obtain ⟨sessionKeys, scheduled, h⟩ := yields_lift_bind.mp h
    obtain ⟨sealedInner, g₂, encrypted, h⟩ := yields_bind.mp h
    obtain ⟨confirmation, g₃, confirmed, h⟩ := yields_bind.mp h
    obtain ⟨hresult, rfl⟩ := yields_pure.mp h
    obtain ⟨rfl, rfl⟩ := Prod.mk.inj hresult
    exact ⟨{
      second, g₁, keys := sessionKeys, sealedInner, g₂, confirmation, valid, created, scheduled
      encrypted, confirmed }, rfl, rfl⟩
  · rintro ⟨a, rfl, rfl⟩
    refine yields_guard.mpr ⟨a.valid, yields_bind.mpr ⟨a.second, a.g₁, a.created, ?_⟩⟩
    refine yields_lift_bind.mpr ⟨a.keys, a.scheduled, ?_⟩
    refine yields_bind.mpr ⟨a.sealedInner, a.g₂, a.encrypted, ?_⟩
    exact yields_bind.mpr ⟨a.confirmation, g', a.confirmed, yields_pure.mpr ⟨rfl, rfl⟩⟩

/-- What the responder finds in message 3 when it accepts it. -/
structure Responder.Accepted (S : Suite ρ) (r : Responder) (h : Handshake) (message3 : Bytes) where
  /-- the keys that follow from the first encapsulation -/
  handshakeKeys : HandshakeKeys
  /-- the message -/
  message : Message3
  /-- its inner layer, decrypted -/
  payload : Bytes
  /-- its inner layer -/
  inner : Message3Inner
  /-- the second encapsulation -/
  second : Encapsulation
  /-- the keys that follow from both encapsulations -/
  keys : SessionKeys
  /-- the keys are those of the handshake -/
  derived : HandshakeKeys.derive S h.first = .ok handshakeKeys
  /-- the message is well-formed -/
  decoded : decodeMessage "M3" 3 message3 = .ok message
  /-- its inner layer opens -/
  opened : Envelope.decrypt S "message 3" handshakeKeys.toResponder message.sealedInner =
    .ok payload
  /-- the inner layer is well-formed -/
  understood : Wire.decode payload = .ok inner
  /-- it asks for nothing that is not supported -/
  supported : ¬ (inner.erp || inner.eso) = true
  /-- the second encapsulation was made for the responder -/
  recovered : Encapsulation.recover S r.keys inner.point inner.ciphertext = .ok second
  /-- the keys follow from both -/
  scheduled : SessionKeys.derive S h.first second = .ok keys
  /-- the initiator confirms the handshake as the responder knows it -/
  confirmed : Envelope.decrypt S "message 3 key confirmation" keys.confirmToResponder
    message.confirmation = .ok (S.hash (h.transcript ++ message.sealedInner))

theorem Responder.yields_receiveMessage3 {r : Responder} {h : Handshake} {message3 : Bytes}
    {now : UInt64} {timed : TimedSession} {message4 : Bytes} :
    Yields (r.receiveMessage3 S h message3 now) g (timed, message4) g' ↔
      ∃ (a : r.Accepted S h message3) (confirmation : Bytes),
        Yields (Envelope.encrypt S a.keys.confirmToInitiator (S.hash (h.transcript ++ message3))) g
          confirmation g' ∧
        message4 = Wire.write { messageType := "M4", confirmation : Message4 } ∧
        timed = {
          session := Session.start .responder r.environment a.keys
          expires := now + sessionLifetime } := by
  unfold receiveMessage3
  constructor
  · intro hyields
    obtain ⟨handshakeKeys, derived, hyields⟩ := yields_lift_bind.mp hyields
    obtain ⟨message, decoded, hyields⟩ := yields_lift_bind.mp hyields
    obtain ⟨payload, opened, hyields⟩ := yields_lift_bind.mp hyields
    -- this failure is reported as one of message 3, so it is no plain check
    cases understood : (Wire.decode payload : Except Cbor.Fault Message3Inner) with
    | error fault =>
      rw [understood] at hyields
      obtain ⟨_, _, hthrow, _⟩ := yields_bind.mp hyields
      exact absurd hthrow not_yields_throw
    | ok inner =>
      rw [understood] at hyields
      obtain ⟨_, g₄, hpure, hyields⟩ := yields_bind.mp hyields
      obtain ⟨rfl, rfl⟩ := yields_pure.mp hpure
      obtain ⟨supported, hyields⟩ := yields_guard.mp hyields
      obtain ⟨second, recovered, hyields⟩ := yields_lift_bind.mp hyields
      obtain ⟨keys, scheduled, hyields⟩ := yields_lift_bind.mp hyields
      -- a confirmation that does not open counts as a wrong one
      cases hconfirmed : Envelope.decrypt S "message 3 key confirmation" keys.confirmToResponder
        message.confirmation with
      | error e =>
        dsimp only at hyields
        rw [hconfirmed] at hyields
        exact absurd hyields not_yields_throw
      | ok hash =>
        dsimp only at hyields
        rw [hconfirmed] at hyields
        obtain ⟨hhash, hyields⟩ := yields_guard.mp hyields
        have confirmed := hconfirmed.trans (congrArg Except.ok (Decidable.not_not.mp hhash))
        obtain ⟨confirmation, g₇, hconfirmation, hyields⟩ := yields_bind.mp hyields
        obtain ⟨hresult, rfl⟩ := yields_pure.mp hyields
        obtain ⟨rfl, rfl⟩ := Prod.mk.inj hresult
        exact ⟨{
          handshakeKeys, message, payload, inner, second, keys, derived, decoded, opened, understood
          supported, recovered, scheduled, confirmed }, confirmation, hconfirmation, rfl, rfl⟩
  · rintro ⟨a, confirmation, hconfirmation, rfl, rfl⟩
    refine yields_lift_bind.mpr ⟨a.handshakeKeys, a.derived, ?_⟩
    refine yields_lift_bind.mpr ⟨a.message, a.decoded, ?_⟩
    refine yields_lift_bind.mpr ⟨a.payload, a.opened, ?_⟩
    rw [a.understood]
    refine yields_bind.mpr ⟨a.inner, g, yields_pure.mpr ⟨rfl, rfl⟩, ?_⟩
    refine yields_guard.mpr ⟨a.supported, ?_⟩
    refine yields_lift_bind.mpr ⟨a.second, a.recovered, ?_⟩
    refine yields_lift_bind.mpr ⟨a.keys, a.scheduled, ?_⟩
    dsimp only
    rw [a.confirmed]
    refine yields_guard.mpr ⟨not_not_intro rfl, ?_⟩
    exact yields_bind.mpr ⟨confirmation, g', hconfirmation, yields_pure.mpr ⟨rfl, rfl⟩⟩

theorem Confirmation.receiveMessage4_eq_ok {c : Confirmation} {message4 : Bytes}
    {session : Session} : c.receiveMessage4 S message4 = .ok session ↔
      ∃ m : Message4, decodeMessage "M4" 4 message4 = .ok m ∧
        Envelope.decrypt S "message 4" c.keys.confirmToInitiator m.confirmation = .ok c.expected ∧
        session = Session.start .initiator c.environment c.keys := by
  simp only [receiveMessage4]
  constructor
  · intro h
    obtain ⟨m, hm, h⟩ := bind_eq_ok.mp h
    split at h
    · exact nomatch h
    · rename_i hash hopened
      obtain ⟨hhash, hsession⟩ := guard_eq_ok.mp h
      obtain rfl := Decidable.not_not.mp hhash
      obtain rfl := Except.ok.inj hsession
      exact ⟨m, hm, hopened, rfl⟩
  · rintro ⟨m, hm, hopened, rfl⟩
    refine bind_eq_ok.mpr ⟨m, hm, ?_⟩
    rw [hopened]
    exact guard_eq_ok.mpr ⟨not_not_intro rfl, rfl⟩

end SealedTunnel
