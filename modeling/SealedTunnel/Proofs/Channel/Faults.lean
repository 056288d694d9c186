import SealedTunnel.Proofs.Channel.Completion
import SealedTunnel.Proofs.Channel.Frames

/-!
# No faults

What a peer sends can be refused, but it is never the receiver that is at fault. The sizes on which
the internal checks insist hold for every input.

* `ChannelError.IsFault` — the errors that blame this end; `OrFault` — other errors, and faults if
  some condition does not hold. Each part of the channel has one lemma with its errors.
* `Refused`, `RefusedFrame` — the errors that blame the peer.
* `Side` — one end of a channel, from the start of its handshake; `Side.Event`, `Side.take`,
  `Side.run` — what may happen to it, and what becomes of it.
* `Side.Sound` — the sizes of what it holds; `Side.sound_take`, `Side.sound_run`.
* `Side.refused_or_exhausted` — every error is a refusal, or a counter is exhausted.
-/

namespace SealedTunnel

open Draw (Yields not_yields_throw)

variable {ρ : Type} {S : Suite ρ} {g g' : ρ} {limit : Nat}

/-! ## Faults -/

/-- The error blames this end: a secret is missing or has another size than all secrets have, or
something that cannot happen did. -/
def ChannelError.IsFault : ChannelError → Prop
  | .missingSecret _ | .invalidSecretLength .. | .internal _ => True
  | _ => False

/-- An error of one kind, or a fault although `p` does not hold. -/
def OrFault (kind : ChannelError → Prop) (p : Prop) (e : ChannelError) : Prop :=
  kind e ∨ e.IsFault ∧ ¬ p

namespace OrFault

variable {kind kind' : ChannelError → Prop} {p p' : Prop} {e : ChannelError}

theorem imp (h : OrFault kind p e) (hkind : kind e → kind' e) (hp : p' → p) :
    OrFault kind' p' e := Or.imp hkind (And.imp_right (mt hp)) h

theorem of_holds (h : OrFault kind p e) (hp : p) : kind e :=
  h.resolve_right fun hfault => hfault.2 hp

/-- A generator that somebody failed while using is a fault. -/
theorem poisoned (hp : p → S.Serves limit) {g : ρ} (h : S.poisoned g = true) :
    OrFault kind p (.internal "rng lock poisoned") :=
  .inr ⟨trivial, fun hserves =>
    Bool.false_ne_true (((hp hserves).unpoisoned g).symm.trans h)⟩

end OrFault

section

variable {α : Type} {kind : ChannelError → Prop} {p p' : Prop}

/-- A part that is never at fault. -/
theorem FailsOnly.refusal {x : Except ChannelError α} (hx : FailsOnly kind x) :
    FailsOnly (OrFault kind p) x := hx.imp fun _ => .inl

/-- A part that only fails if it is at fault. -/
theorem FailsOnly.fault {x : Except ChannelError α} (hx : FailsOnly (OrFault (fun _ => False) p) x)
    (hp : p' → p) : FailsOnly (OrFault kind p') x := hx.imp fun _ h => h.imp False.elim hp

/-- The same for a part with draws. -/
theorem Draw.FailsOnly.refusal {d : Draw ρ α} (hd : FailsOnly kind d) :
    FailsOnly (OrFault kind p) d := hd.imp fun _ => .inl

/-- The same for a part with draws. -/
theorem Draw.FailsOnly.fault {d : Draw ρ α} (hd : FailsOnly (OrFault (fun _ => False) p) d)
    (hp : p' → p) : FailsOnly (OrFault kind p') d := hd.imp fun _ h => h.imp False.elim hp

end

/-! ## Keys and envelopes -/

/-- Something is wrong with a public key or a ciphertext. -/
def MalformedKey (e : ChannelError) : Prop := ∃ reason, e = .malformedKey reason

theorem failsOnly_checkCipherKey (key : Bytes) :
    FailsOnly (OrFault (fun _ => False) (key.length = 32)) (checkCipherKey key) := by
  intro e he
  obtain ⟨hkey, rfl⟩ := checkCipherKey_eq_error.mp he
  exact .inr ⟨trivial, hkey⟩

theorem Suite.failsOnly_encrypt (key : Bytes) (iv : Vector UInt8 ivSize) (aad plain : Bytes) :
    FailsOnly (OrFault (fun _ => False) (S.Serves limit ∧ key.length = 32 ∧ plain.length < limit))
      (S.encrypt key iv.toList aad plain) := by
  simp only [encrypt]
  cases hsealed : S.encrypt? key iv.toList aad plain with
  | some sealedText => exact .ok sealedText
  | none =>
    refine .error (.inr ⟨trivial, fun h => ?_⟩)
    obtain ⟨hserves, hkey, hplain⟩ := h
    obtain ⟨sealedText, hsome⟩ := hserves.encrypts key _ aad plain hkey iv.length_toList hplain
    rw [hsealed] at hsome
    cases hsome

namespace Envelope

theorem failsOnly_encrypt (key plain : Bytes) : Draw.FailsOnly
    (OrFault (fun _ => False) (S.Serves limit ∧ key.length = 32 ∧ plain.length < limit))
    (encrypt S key plain) := by
  refine .lift_bind ((failsOnly_checkCipherKey key).fault fun h => h.2.1) fun _ _ => ?_
  refine .bind (.random _ fun _ => .poisoned fun h => h.1) fun _ iv _ _ => ?_
  exact .lift_bind (Suite.failsOnly_encrypt key iv [] plain) fun _ _ => .pure _

theorem failsOnly_decrypt (step : String) (key envelope : Bytes) :
    FailsOnly (OrFault (· = .authentication step) (key.length = 32))
      (decrypt S step key envelope) := by
  rw [decrypt_eq]
  refine .bind ((failsOnly_checkCipherKey key).fault id) fun _ => ?_
  refine .guard (fun _ => .inl rfl) fun _ => ?_
  cases S.decrypt? key (envelope.take ivSize) [] (envelope.drop ivSize) with
  | none => exact .error (.inl rfl)
  | some plain => exact .ok plain

end Envelope

theorem CurvePoint.failsOnly_encode (point : CurvePoint) : FailsOnly MalformedKey point.encode := by
  refine .refuse (fun _ => ⟨_, rfl⟩) fun _ => .refuse (fun _ => ⟨_, rfl⟩) fun _ => ?_
  exact .refuse (fun _ => ⟨_, rfl⟩) fun _ => .ok _

theorem failsOnly_checkKyberKey (key : Bytes) : FailsOnly MalformedKey (checkKyberKey key) := by
  simp only [checkKyberKey]
  split
  · exact .ok ()
  · exact .error ⟨_, rfl⟩

theorem Suite.failsOnly_scalar {failure : ChannelError} :
    Draw.FailsOnly (· = failure) (S.scalar failure) := by
  refine .bind (fun g => .ok _) fun _ found _ _ => ?_
  cases found with
  | none => exact .throw rfl
  | some bytes => exact .pure bytes

namespace Encapsulation

theorem failsOnly_create (point : CurvePoint) (kyber : Bytes) :
    Draw.FailsOnly (OrFault MalformedKey (S.Serves limit)) (create S point kyber) := by
  refine .lift_bind point.failsOnly_encode.refusal fun encoded _ => ?_
  refine .lift_bind (failsOnly_checkKyberKey kyber).refusal fun _ _ => ?_
  refine .locked (fun _ => .poisoned id) ?_
  refine .bind (Suite.failsOnly_scalar.imp fun e he => .inl ⟨_, he⟩) fun _ scalar _ _ => ?_
  cases S.agree? scalar encoded with
  | none => exact .throw (.inl ⟨_, rfl⟩)
  | some shared => exact .bind (.bytes 32) fun _ _ _ _ => .pure _

theorem failsOnly_recover (own : KeyPair) (point : CurvePoint) (ciphertext : Bytes) :
    FailsOnly MalformedKey (recover S own point ciphertext) := by
  refine .bind point.failsOnly_encode fun encoded => ?_
  cases S.agree? own.scalar encoded with
  | none => exact .error ⟨_, rfl⟩
  | some shared => exact .guard (fun _ => ⟨_, rfl⟩) fun _ => .ok _

/-- Whoever sent it, what is recovered are two secrets of 32 bytes. -/
theorem shared_of_recover (hS : S.Delivers limit) {own : KeyPair} {point : CurvePoint}
    {ciphertext : Bytes} {e : Encapsulation} (h : recover S own point ciphertext = .ok e) :
    e.Shared := by
  simp only [recover] at h
  obtain ⟨encoded, -, h⟩ := bind_eq_ok.mp h
  cases hagree : S.agree? own.scalar encoded with
  | none =>
    rw [hagree] at h
    cases h
  | some shared =>
    rw [hagree] at h
    obtain ⟨-, h⟩ := guard_eq_ok.mp h
    obtain rfl := Except.ok.inj h
    exact ⟨length_take_point (hS.agree _ _ _ hagree), hS.decapsulate _ _⟩

end Encapsulation

/-! ## The key schedule -/

theorem failsOnly_checkedSecret (secret : Bytes) (what : String) :
    FailsOnly ChannelError.IsFault (checkedSecret secret what) :=
  .refuse (fun _ => trivial) fun _ => .refuse (fun _ => trivial) fun _ => .ok secret

theorem Encapsulation.failsOnly_secrets (e : Encapsulation) (which : String) :
    FailsOnly ChannelError.IsFault (e.secrets which) :=
  (failsOnly_checkedSecret _ _).bind fun _ => (failsOnly_checkedSecret _ _).bind fun _ => .ok _

theorem failsOnly_exactly (what : String) (size : Nat) (part : Bytes) :
    FailsOnly ChannelError.IsFault (exactly what size part) := by
  simp only [exactly]
  split
  · exact .ok _
  · exact .error trivial

theorem failsOnly_expand (secret : Bytes) (length : Nat) :
    FailsOnly ChannelError.IsFault (expand S secret length) := by
  simp only [expand]
  split
  · exact .ok _
  · exact .error trivial

/-- What fails with faults only, and does not fail at all if `p` holds. -/
theorem FailsOnly.orFault {α : Type} {x : Except ChannelError α} {p : Prop}
    (hx : FailsOnly ChannelError.IsFault x) (hp : p → ∃ a, x = .ok a) :
    FailsOnly (OrFault (fun _ => False) p) x := by
  intro e he
  refine .inr ⟨hx e he, fun h => ?_⟩
  obtain ⟨a, ha⟩ := hp h
  exact nomatch ha.symm.trans he

namespace HandshakeKeys

theorem failsOnly_derive (first : Encapsulation) :
    FailsOnly (OrFault (fun _ => False) (S.Delivers limit ∧ first.Shared)) (derive S first) := by
  refine FailsOnly.orFault ?_ fun ⟨hS, hfirst⟩ => ?_
  · exact (first.failsOnly_secrets _).bind fun _ => (failsOnly_expand _ _).bind fun _ => .ok _
  · obtain ⟨keys, hkeys, -⟩ := exists_derive (hS.derive · 64 (by decide)) hfirst
    exact ⟨keys, hkeys⟩

theorem sized_of_derive (hS : S.Delivers limit) {first : Encapsulation} (hfirst : first.Shared)
    {keys : HandshakeKeys} (h : derive S first = .ok keys) :
    keys.toResponder.length = 32 ∧ keys.toInitiator.length = 32 := by
  obtain ⟨keys', hkeys, hsized⟩ := exists_derive (hS.derive · 64 (by decide)) hfirst
  obtain rfl := Except.ok.inj (h.symm.trans hkeys)
  exact hsized

end HandshakeKeys

namespace SessionKeys

theorem failsOnly_keyAt (material : Bytes) (i : Nat) :
    FailsOnly ChannelError.IsFault (keyAt material i) :=
  (failsOnly_exactly _ _ _).bind fun _ => .ok _

theorem failsOnly_derive (first second : Encapsulation) :
    FailsOnly (OrFault (fun _ => False) (S.Delivers limit ∧ first.Shared ∧ second.Shared))
      (derive S first second) := by
  refine FailsOnly.orFault ?_ fun ⟨hS, hfirst, hsecond⟩ => ?_
  · refine (first.failsOnly_secrets _).bind fun _ => (second.failsOnly_secrets _).bind fun _ => ?_
    refine (failsOnly_expand _ _).bind fun _ => ?_
    refine (failsOnly_keyAt _ 0).bind fun _ => (failsOnly_keyAt _ 1).bind fun _ => ?_
    refine (failsOnly_keyAt _ 2).bind fun _ => (failsOnly_keyAt _ 3).bind fun _ => ?_
    exact (failsOnly_keyAt _ 4).bind fun _ => .ok _
  · obtain ⟨keys, hkeys, -⟩ := exists_derive (hS.derive · 160 (by decide)) hfirst hsecond
    exact ⟨keys, hkeys⟩

theorem sized_of_derive (hS : S.Delivers limit) {first second : Encapsulation}
    (hfirst : first.Shared) (hsecond : second.Shared) {keys : SessionKeys}
    (h : derive S first second = .ok keys) : keys.Sized := by
  obtain ⟨keys', hkeys, hsized⟩ :=
    exists_derive (hS.derive · 160 (by decide)) hfirst hsecond
  obtain rfl := Except.ok.inj (h.symm.trans hkeys)
  exact hsized

end SessionKeys

/-! ## The handshake -/

theorem Suite.Delivers.length_hash_lt (hS : S.Delivers limit) (hlimit : 2048 < limit) (b : Bytes) :
    (S.hash b).length < limit := by
  rw [hS.hash]
  omega

/-- The errors that a handshake message can be refused with. Message 4 carries no keys, and what is
encrypted in it counts as a confirmation only. -/
inductive Refused : (message : Nat) → ChannelError → Prop where
  /-- it does not follow its format -/
  | malformed (message : Nat) (reason : String) :
    Refused message (.malformedMessage message reason)
  /-- nor does a key or a ciphertext in it -/
  | key {message : Nat} (carries : message ≠ 4) (reason : String) :
    Refused message (.malformedKey reason)
  /-- the signed keys do not open -/
  | signedKeys : Refused 2 (.authentication "message 2")
  /-- the inner layer does not open -/
  | inner : Refused 3 (.authentication "message 3")
  /-- the confirmation does not open, or confirms something else -/
  | confirmation {message : Nat} (confirms : message = 3 ∨ message = 4) :
    Refused message (.transcriptMismatch message)

theorem failsOnly_decodeMessage {α : Type} [Wire α] (expected : String) (message : Nat)
    (b : Bytes) :
    FailsOnly (Refused message) (decodeMessage expected message b : Except ChannelError α) := by
  intro e he
  obtain ⟨reason, rfl⟩ := malformed_of_decodeMessage he
  exact .malformed message reason

theorem MalformedKey.refused {e : ChannelError} (h : MalformedKey e) {message : Nat}
    (carries : message ≠ 4) : Refused message e := by
  obtain ⟨reason, rfl⟩ := h
  exact .key carries reason

namespace Initiator

/-- The initiator has no keys to start with only if no private key was drawn, or if somebody failed
while drawing. -/
theorem failsOnly_start (environment : Environment) :
    Draw.FailsOnly (OrFault (· = .internal "ecdh key generation") (S.Serves limit))
      (start S environment) := by
  refine .bind (.locked (fun _ => .poisoned id) ?_) fun _ _ _ _ => .pure _
  refine .bind Suite.failsOnly_scalar.refusal fun _ _ _ _ => ?_
  exact .bind (.bytes 64) fun _ _ _ _ => .pure _

theorem failsOnly_receiveMessage2 (i : Initiator) (message2 : Bytes) :
    FailsOnly (OrFault (Refused 2) (S.Delivers limit)) (i.receiveMessage2 S message2) := by
  refine .bind (failsOnly_decodeMessage _ _ _).refusal fun m => ?_
  have hrecover : FailsOnly (Refused 2) (Encapsulation.recover S i.keys m.point m.ciphertext) :=
    (Encapsulation.failsOnly_recover _ _ _).imp fun e h => h.refused (by decide)
  refine .bind_of_ok hrecover.refusal fun first hfirst => ?_
  have hshared (hS : S.Delivers limit) := Encapsulation.shared_of_recover hS hfirst
  refine .bind_of_ok ((HandshakeKeys.failsOnly_derive first).fault fun hS => ⟨hS, hshared hS⟩)
    fun keys hkeys => ?_
  have hkey (hS : S.Delivers limit) := (HandshakeKeys.sized_of_derive hS (hshared hS) hkeys).2
  refine .bind ((Envelope.failsOnly_decrypt _ _ _).imp fun e h =>
    h.imp (fun he => he ▸ .signedKeys) hkey) fun payload => ?_
  cases (Wire.decode payload : Except Cbor.Fault SignedKeys) with
  | error fault => exact .error (.inl (.malformed 2 _))
  | ok signed => exact .ok _

theorem sound_receiveMessage2 (hS : S.Delivers limit) {i : Initiator} {message2 : Bytes}
    {t : TrustDecision} (h : i.receiveMessage2 S message2 = .ok t) :
    t.first.Shared ∧ t.handshakeKeys.toResponder.length = 32 := by
  obtain ⟨m, first, keys, payload, signed, -, hfirst, hkeys, -, -, rfl⟩ :=
    receiveMessage2_eq_ok.mp h
  have hshared := Encapsulation.shared_of_recover hS hfirst
  exact ⟨hshared, (HandshakeKeys.sized_of_derive hS hshared hkeys).1⟩

end Initiator

namespace TrustDecision

/-- The errors that trusted keys can be refused with: they have expired, or they are malformed. -/
def RefusedKeys (keys : PublicKeys) (now : UInt64) (e : ChannelError) : Prop :=
  keys.expiry < now ∧ e = .expiredKeys keys.expiry now ∨ MalformedKey e

theorem failsOnly_accept (hlimit : 2048 < limit) (t : TrustDecision) (keys : PublicKeys)
    (now : UInt64) : Draw.FailsOnly (OrFault (RefusedKeys keys now)
      (S.Delivers limit ∧ t.first.Shared ∧ t.handshakeKeys.toResponder.length = 32))
      (t.accept S keys now) := by
  refine .guard (fun hexpired => .inl (.inl ⟨hexpired, rfl⟩)) fun _ => ?_
  refine .bind ((Encapsulation.failsOnly_create keys.point keys.kyber).imp fun e h =>
    h.imp .inr fun ⟨hS, _⟩ => hS.toServes) fun g₁ second g₂ hcreated => ?_
  have hsecond (hS : S.Delivers limit) := Encapsulation.sized_of_yields hS.toEncapsulates hcreated
  refine .lift_bind ((SessionKeys.failsOnly_derive _ _).fault fun ⟨hS, hfirst, _⟩ =>
    ⟨hS, hfirst, (hsecond hS).shared⟩) fun sessionKeys hkeys => ?_
  have hsized (hS : S.Delivers limit) (hfirst : t.first.Shared) :=
    SessionKeys.sized_of_derive hS hfirst (hsecond hS).shared hkeys
  refine .bind ((Envelope.failsOnly_encrypt _ _).fault fun ⟨hS, _, hkey⟩ =>
    ⟨hS.toServes, hkey, Nat.lt_of_le_of_lt (hsecond hS).length_inner_le hlimit⟩)
    fun _ sealedInner _ _ => ?_
  refine .bind ((Envelope.failsOnly_encrypt _ _).fault fun ⟨hS, hfirst, _⟩ =>
    ⟨hS.toServes, (hsized hS hfirst).confirmToResponder, hS.length_hash_lt hlimit _⟩)
    fun _ confirmation _ _ => ?_
  exact .pure _

theorem sound_accept (hS : S.Delivers limit) {t : TrustDecision} (ht : t.first.Shared)
    {keys : PublicKeys} {now : UInt64} {c : Confirmation} {message3 : Bytes}
    (h : Yields (t.accept S keys now) g (c, message3) g') : c.keys.Sized := by
  obtain ⟨a, -, rfl⟩ := yields_accept.mp h
  have hsecond := (Encapsulation.sized_of_yields hS.toEncapsulates a.created).shared
  exact SessionKeys.sized_of_derive hS ht hsecond a.scheduled

end TrustDecision

namespace Responder

theorem failsOnly_receiveMessage1 (r : Responder) (message1 ocsp : Bytes) :
    Draw.FailsOnly (OrFault (Refused 1)
      (S.Delivers limit ∧ (Wire.write { r.signed with ocsp }).length < limit))
      (r.receiveMessage1 S message1 ocsp) := by
  refine .lift_bind (failsOnly_decodeMessage _ _ _).refusal fun m _ => ?_
  refine .bind ((Encapsulation.failsOnly_create m.point m.kyber).imp fun e h =>
    h.imp (·.refused (by decide)) fun ⟨hS, _⟩ => hS.toServes) fun g₁ first g₂ hcreated => ?_
  have hshared (hS : S.Delivers limit) : first.Shared :=
    (Encapsulation.sized_of_yields hS.toEncapsulates hcreated).shared
  refine .lift_bind ((HandshakeKeys.failsOnly_derive first).fault fun ⟨hS, _⟩ => ⟨hS, hshared hS⟩)
    fun keys hkeys => ?_
  refine .bind ((Envelope.failsOnly_encrypt _ _).fault fun ⟨hS, hsmall⟩ =>
    ⟨hS.toServes, (HandshakeKeys.sized_of_derive hS (hshared hS) hkeys).2, hsmall⟩)
    fun _ sealedKeys _ _ => ?_
  exact .pure _

theorem sound_receiveMessage1 (hS : S.Delivers limit) {r : Responder}
    {message1 ocsp message2 : Bytes} {handshake : Handshake}
    (h : Yields (r.receiveMessage1 S message1 ocsp) g (handshake, message2) g') :
    handshake.first.Shared := by
  obtain ⟨a, -, rfl⟩ := yields_receiveMessage1.mp h
  exact (Encapsulation.sized_of_yields hS.toEncapsulates a.created).shared

theorem failsOnly_receiveMessage3 (hlimit : 2048 < limit) (r : Responder) (h : Handshake)
    (message3 : Bytes) (now : UInt64) :
    Draw.FailsOnly (OrFault (Refused 3) (S.Delivers limit ∧ h.first.Shared))
      (r.receiveMessage3 S h message3 now) := by
  unfold receiveMessage3
  refine .lift_bind ((HandshakeKeys.failsOnly_derive h.first).fault id)
    fun handshakeKeys hhandshakeKeys => ?_
  refine .lift_bind (failsOnly_decodeMessage _ _ _).refusal fun m _ => ?_
  refine .lift_bind ((Envelope.failsOnly_decrypt _ _ _).imp fun e he =>
    he.imp (fun heq => heq ▸ .inner) fun ⟨hS, hfirst⟩ =>
      (HandshakeKeys.sized_of_derive hS hfirst hhandshakeKeys).1) fun payload _ => ?_
  cases (Wire.decode payload : Except Cbor.Fault Message3Inner) with
  | error fault =>
    exact .bind (.throw (.inl (.malformed 3 _))) fun _ _ _ hthrow => absurd hthrow not_yields_throw
  | ok inner =>
    refine .bind (.pure inner) fun _ inner _ _ => ?_
    refine .guard (fun _ => .inl (.malformed 3 _)) fun _ => ?_
    have hrecover : FailsOnly (Refused 3)
        (Encapsulation.recover S r.keys inner.point inner.ciphertext) :=
      (Encapsulation.failsOnly_recover _ _ _).imp fun e he => he.refused (by decide)
    refine .lift_bind hrecover.refusal fun second hsecond => ?_
    have hshared (hS : S.Delivers limit) := Encapsulation.shared_of_recover hS hsecond
    refine .lift_bind ((SessionKeys.failsOnly_derive _ _).fault fun ⟨hS, hfirst⟩ =>
      ⟨hS, hfirst, hshared hS⟩) fun keys hkeys => ?_
    dsimp only
    -- a confirmation that does not open is refused like a wrong one, whatever the reason
    cases Envelope.decrypt S "message 3 key confirmation" keys.confirmToResponder
      m.confirmation with
    | error e => exact .throw (.inl (.confirmation (.inl rfl)))
    | ok confirmed =>
      refine .guard (fun _ => .inl (.confirmation (.inl rfl))) fun _ => ?_
      refine .bind ((Envelope.failsOnly_encrypt _ _).fault fun ⟨hS, hfirst⟩ =>
        ⟨hS.toServes, (SessionKeys.sized_of_derive hS hfirst (hshared hS) hkeys).confirmToInitiator,
          hS.length_hash_lt hlimit _⟩) fun _ confirmation _ _ => ?_
      exact .pure _

theorem sound_receiveMessage3 (hS : S.Delivers limit) {r : Responder} {handshake : Handshake}
    (hhandshake : handshake.first.Shared) {message3 message4 : Bytes} {now : UInt64}
    {timed : TimedSession}
    (h : Yields (r.receiveMessage3 S handshake message3 now) g (timed, message4) g') :
    ∃ keys : SessionKeys, keys.Sized ∧
      timed.session = Session.start .responder r.environment keys := by
  obtain ⟨a, _, -, -, rfl⟩ := yields_receiveMessage3.mp h
  have hsecond := Encapsulation.shared_of_recover hS a.recovered
  exact ⟨a.keys, SessionKeys.sized_of_derive hS hhandshake hsecond a.scheduled, rfl⟩

end Responder

/-- Whatever is wrong with a confirmation, it is not a fault. -/
theorem Confirmation.failsOnly_receiveMessage4 (c : Confirmation) (message4 : Bytes) :
    FailsOnly (Refused 4) (c.receiveMessage4 S message4) := by
  refine .bind (failsOnly_decodeMessage _ _ _) fun m => ?_
  cases Envelope.decrypt S "message 4" c.keys.confirmToInitiator m.confirmation with
  | error e => exact .error (.confirmation (.inr rfl))
  | ok hash => exact .guard (fun _ => .confirmation (.inr rfl)) fun _ => .ok _

/-! ## Sessions -/

/-- The errors that a frame can be refused with. -/
inductive RefusedFrame : ChannelError → Prop where
  /-- it does not follow its format -/
  | malformed (reason : String) : RefusedFrame (.malformedFrame reason)
  /-- it is out of sequence -/
  | counter (expected actual : UInt64) : RefusedFrame (.counterMismatch expected actual)
  /-- it names other keys -/
  | keyId : RefusedFrame .keyIdMismatch
  /-- its payload does not open -/
  | payload : RefusedFrame (.authentication "application data")

namespace Frame

theorem failsOnly_parse (b : Bytes) : FailsOnly RefusedFrame (parse b) := by
  match b with
  | [] | [_] | [_, _] => exact .error (.malformed _)
  | version :: environment :: direction :: rest =>
    by_cases hlength : rest.length + 3 < minSize
    · have hshort : parse (version :: environment :: direction :: rest) =
        .error (.malformedFrame s!"frame too short: {rest.length + 3} bytes") := if_pos hlength
      rw [hshort]
      exact .error (.malformed _)
    · obtain ⟨iv, -, hparse⟩ := parse_of_length version environment direction hlength
      rw [hparse]
      exact .ok _

theorem failsOnly_encrypt (key keyId : Bytes) (environment : Environment) (direction : Direction)
    (counter : UInt64) (salt : Vector UInt8 4) (plain : Bytes) : FailsOnly
    (OrFault (fun _ => False) (S.Serves limit ∧ key.length = 32 ∧ plain.length < limit))
    (encrypt S key keyId environment direction counter salt plain) :=
  (Suite.failsOnly_encrypt key (ivOf salt counter) _ plain).bind fun _ => .ok _

theorem failsOnly_decrypt (key keyId : Bytes) (environment : Environment) (direction : Direction)
    (f : Frame) : FailsOnly RefusedFrame (f.decrypt S key keyId environment direction) := by
  rw [decrypt_eq]
  refine .refuse (fun _ => .malformed _) fun _ => .refuse (fun _ => .malformed _) fun _ => ?_
  refine .refuse (fun _ => .malformed _) fun _ => .refuse (fun _ => .keyId) fun _ => ?_
  refine .refuse (fun _ => .malformed _) fun _ => ?_
  cases S.decrypt? key f.iv.toList f.header f.ciphertext with
  | none => exact .error .payload
  | some plain => exact .ok plain

end Frame

namespace Session

/-- The error of a responder that has answered everything it received. -/
def AllAnswered (s : Session) (e : ChannelError) : Prop :=
  s.role = .responder ∧ s.received ≤ s.sent ∧ e = .counterMismatch (s.sent + 1) s.received

/-- The error of an initiator that has sent the last request there is a number for. -/
def AllSent (s : Session) (e : ChannelError) : Prop :=
  s.role = .initiator ∧ s.sent = lastCounter ∧ e = .internal "request counter exhausted"

/-- The error of an end that has received the last frame there is a number for. -/
def AllReceived (s : Session) (e : ChannelError) : Prop :=
  s.received = lastCounter ∧ e = .internal "response counter exhausted"

theorem failsOnly_nextOutgoing (s : Session) :
    FailsOnly (fun e => s.AllAnswered e ∨ s.AllSent e) s.nextOutgoing := by
  simp only [nextOutgoing]
  split
  · rename_i hrole
    split
    · rename_i hlast
      exact .error (.inr ⟨hrole, hlast, rfl⟩)
    · exact .ok _
  · rename_i hrole
    split
    · exact .ok _
    · rename_i hlt
      exact .error (.inl ⟨hrole, UInt64.not_lt.mp hlt, rfl⟩)

theorem failsOnly_encrypt (s : Session) (plain : Bytes) (g : ρ) : FailsOnly
    (OrFault (fun e => s.AllAnswered e ∨ s.AllSent e)
      (S.Serves limit ∧ s.sealKey.length = 32 ∧ plain.length < limit))
    ((encrypt S plain).run (s, g)).1 := by
  intro e he
  obtain hnext | ⟨counter, -, h⟩ := fails_encrypt.mp he
  · exact .inl (s.failsOnly_nextOutgoing e hnext)
  obtain ⟨hpoisoned, rfl⟩ | ⟨-, ⟨hkey, rfl⟩ | ⟨-, hrefused⟩⟩ := h
  · exact .poisoned (fun h => h.1) hpoisoned
  · exact .inr ⟨trivial, fun h => hkey h.2.1⟩
  · exact (Frame.failsOnly_encrypt _ _ _ _ _ _ _).fault id e hrefused

theorem failsOnly_decrypt (s : Session) (wire : Bytes) : FailsOnly
    (OrFault (fun e => RefusedFrame e ∨ s.AllReceived e) (s.openKey.length = 32))
    ((decrypt S wire).run s).1 := by
  intro e he
  obtain hparse | ⟨frame, -, h⟩ := fails_decrypt.mp he
  · exact .inl (.inl (Frame.failsOnly_parse wire e hparse))
  obtain ⟨hlast, rfl⟩ | ⟨-, ⟨-, rfl⟩ | ⟨-, ⟨hkey, rfl⟩ | ⟨-, hrefused⟩⟩⟩ := h
  · exact .inl (.inr ⟨hlast, rfl⟩)
  · exact .inl (.inl (.counter _ _))
  · exact .inr ⟨trivial, hkey⟩
  · exact .inl (.inl (Frame.failsOnly_decrypt _ _ _ _ _ e hrefused))

/-- The keys of both ways have 32 bytes. -/
structure Keyed (s : Session) : Prop where
  /-- the key of outgoing frames -/
  sealKey : s.sealKey.length = 32
  /-- the key of incoming frames -/
  openKey : s.openKey.length = 32

theorem keyed_start {keys : SessionKeys} (h : keys.Sized) (role : Role)
    (environment : Environment) : (start role environment keys).Keyed := by
  cases role with
  | initiator => exact ⟨h.requests, h.responses⟩
  | responder => exact ⟨h.responses, h.requests⟩

theorem Keyed.encrypt {s : Session} (h : s.Keyed) (plain : Bytes) (g : ρ) :
    ((Session.encrypt S plain).run (s, g)).2.1.Keyed := by
  rcases hrun : (Session.encrypt S plain).run (s, g) with ⟨e | frame, s', g'⟩
  · obtain rfl : s' = s := (spares_encrypt S plain).eq hrun
    exact h
  · obtain ⟨counter, salt, -, -, -, -, rfl, -⟩ := yields_encrypt.mp (.of_run hrun)
    exact ⟨h.sealKey, h.openKey⟩

theorem Keyed.decrypt {s : Session} (h : s.Keyed) (wire : Bytes) :
    ((Session.decrypt S wire).run s).2.Keyed := by
  rcases hrun : (Session.decrypt S wire).run s with ⟨e | plain, s'⟩
  · obtain rfl : s' = s := (spares_decrypt S wire).eq hrun
    exact h
  · obtain ⟨frame, -, -, -, -, -, -, rfl⟩ := yields_decrypt.mp (.of_run hrun)
    exact ⟨h.sealKey, h.openKey⟩

end Session

/-! ## One end of a channel -/

/-- One end of a channel, from the start of its handshake. -/
inductive Side where
  /-- an initiator that has sent message 1 -/
  | initiator (i : Initiator)
  /-- an initiator that has opened message 2 -/
  | deciding (t : TrustDecision)
  /-- an initiator that has sent message 3 -/
  | confirming (c : Confirmation)
  /-- a responder -/
  | responder (r : Responder)
  /-- a responder that has sent message 2 -/
  | answering (r : Responder) (handshake : Handshake)
  /-- the channel is established -/
  | established (s : Session)

/-- What may happen to one end of a channel. The bytes come from anybody, and so do the points in
time and the states of the generator. -/
inductive Side.Event (ρ : Type) where
  /-- message 1 arrives -/
  | message1 (b ocsp : Bytes) (g : ρ)
  /-- message 2 arrives -/
  | message2 (b : Bytes)
  /-- the keys in message 2 are trusted, or there is an error -/
  | verdict (answer : Except ChannelError PublicKeys) (now : UInt64) (g : ρ)
  /-- message 3 arrives -/
  | message3 (b : Bytes) (now : UInt64) (g : ρ)
  /-- message 4 arrives -/
  | message4 (b : Bytes)
  /-- a payload is to be sent -/
  | encrypt (plain : Bytes) (g : ρ)
  /-- a frame arrives -/
  | decrypt (wire : Bytes)

namespace Side

variable {side side' : Side} {event : Event ρ}

/-- A step of the handshake. An error leaves everything as it was, so that anything may be tried
again. -/
def settle (side : Side) : (next : Except ChannelError Side) → Except ChannelError Unit × Side
  | .ok side' => (.ok (), side')
  | .error e => (.error e, side)

variable (S) in
/-- What becomes of one end of a channel. Nothing happens to it for which it is not ready. -/
def take : Side → Event ρ → Except ChannelError Unit × Side
  | initiator i, .message2 b => settle (initiator i) do
    let t ← i.receiveMessage2 S b
    return deciding t
  | deciding t, .verdict answer now g => settle (deciding t) do
    let keys ← answer
    let (c, _) ← ((t.accept S keys now).run g).1
    return confirming c
  | confirming c, .message4 b => settle (confirming c) do
    let s ← c.receiveMessage4 S b
    return established s
  | responder r, .message1 b ocsp g => settle (responder r) do
    let (handshake, _) ← ((r.receiveMessage1 S b ocsp).run g).1
    return answering r handshake
  | answering r handshake, .message3 b now g => settle (answering r handshake) do
    let (timed, _) ← ((r.receiveMessage3 S handshake b now).run g).1
    return established timed.session
  | established s, .encrypt plain g =>
    let (result, s', _) := (Session.encrypt S plain).run (s, g)
    (result.map fun _ => (), established s')
  | established s, .decrypt wire =>
    let (result, s') := (Session.decrypt S wire).run s
    (result.map fun _ => (), established s')
  | side, _ => (.ok (), side)

variable (S) in
/-- What becomes of one end of a channel in the end. -/
def run (side : Side) (events : List (Event ρ)) : Side :=
  events.foldl (fun side event => (side.take S event).2) side

/-- The handshake has just started, with whatever keys. -/
def Fresh : Side → Prop
  | initiator _ | responder _ => True
  | _ => False

/-- Who judges the keys in message 2 does not blame this end. -/
def Event.Fair : Event ρ → Prop
  | .verdict (.error e) .. => ¬ e.IsFault
  | _ => True

/-- What is to be encrypted when this happens is shorter than the limit. -/
def Below (limit : Nat) : Side → Event ρ → Prop
  | responder r, .message1 _ ocsp _ => (Wire.write { r.signed with ocsp }).length < limit
  | established _, .encrypt plain _ => plain.length < limit
  | _, _ => True

/-- The errors that what happens can be refused with. -/
def Refuses : Side → Event ρ → ChannelError → Prop
  | _, .message1 .., e => Refused 1 e
  | _, .message2 _, e => Refused 2 e
  | _, .verdict (.error e') .., e => e = e'
  | _, .verdict (.ok keys) now _, e => TrustDecision.RefusedKeys keys now e
  | _, .message3 .., e => Refused 3 e
  | _, .message4 _, e => Refused 4 e
  | established s, .encrypt .., e => s.AllAnswered e
  | _, .encrypt .., _ => False
  | _, .decrypt _, e => RefusedFrame e

/-- The error says that a counter is exhausted, and it is. -/
def Exhausted : Side → Event ρ → ChannelError → Prop
  | established s, .encrypt .., e => s.AllSent e
  | established s, .decrypt _, e => s.AllReceived e
  | _, _, _ => False

/-- The secrets and keys that one end holds have the right size. -/
def Sound : Side → Prop
  | initiator _ | responder _ => True
  | deciding t => t.first.Shared ∧ t.handshakeKeys.toResponder.length = 32
  | confirming c => c.keys.Sized
  | answering _ handshake => handshake.first.Shared
  | established s => s.Keyed

theorem Fresh.sound (h : side.Fresh) : side.Sound := by
  cases side with
  | initiator i => trivial
  | responder r => trivial
  | _ => exact h.elim

/-- Nothing that blames this end is among the errors that something is refused with. -/
theorem Refuses.not_isFault {e : ChannelError} (h : side.Refuses event e) (hfair : event.Fair) :
    ¬ e.IsFault := by
  have hmessage {message : Nat} (hrefused : Refused message e) : ¬ e.IsFault := by
    cases hrefused <;> exact id
  cases event with
  | message1 b ocsp g => exact hmessage h
  | message2 b => exact hmessage h
  | message3 b now g => exact hmessage h
  | message4 b => exact hmessage h
  | verdict answer now g =>
    cases answer with
    | error e' =>
      obtain rfl := h
      exact hfair
    | ok keys =>
      obtain ⟨-, rfl⟩ | ⟨reason, rfl⟩ := h
      · exact id
      · exact id
  | encrypt plain g =>
    cases side with
    | established s =>
      obtain ⟨-, -, rfl⟩ := h
      exact id
    | _ => exact h.elim
  | decrypt wire => cases h <;> exact id

theorem failsOnly_settle {kind : ChannelError → Prop} {next : Except ChannelError Side}
    (h : FailsOnly kind next) : FailsOnly kind (side.settle next).1 := by
  cases next with
  | error e => exact .error (h e rfl)
  | ok side' => exact .ok ()

theorem sound_settle {next : Except ChannelError Side} (hside : side.Sound)
    (hnext : ∀ side', next = .ok side' → side'.Sound) : (side.settle next).2.Sound := by
  cases next with
  | error e => exact hside
  | ok side' => exact hnext side' rfl

/-- One end of a channel with secrets and keys of the right size has no other errors. -/
theorem failsOnly_take (hlimit : 2048 < limit) (hS : S.Delivers limit) (hsound : side.Sound)
    (hbelow : side.Below limit event) :
    FailsOnly (fun e => side.Refuses event e ∨ side.Exhausted event e) (side.take S event).1 := by
  revert hbelow
  -- each side is ready for one event only, and for two once the channel is established
  fun_cases take S side event with
  | case1 i b =>
    intro _
    exact failsOnly_settle <| .bind ((i.failsOnly_receiveMessage2 b).imp fun e h =>
      .inl (h.of_holds hS)) fun _ => .ok _
  | case2 t answer now g =>
    intro _
    refine failsOnly_settle ?_
    cases answer with
    | error e => exact .error (.inl rfl)
    | ok keys =>
      show FailsOnly _ (((t.accept S keys now).run g).1 >>= fun _ => _)
      exact .bind ((t.failsOnly_accept hlimit keys now g).imp fun e h =>
        .inl (h.of_holds ⟨hS, hsound⟩)) fun _ => .ok _
  | case3 c b =>
    intro _
    exact failsOnly_settle <| .bind ((c.failsOnly_receiveMessage4 b).imp fun e h => .inl h)
      fun _ => .ok _
  | case4 r b ocsp g =>
    intro hbelow
    exact failsOnly_settle <| .bind ((r.failsOnly_receiveMessage1 b ocsp g).imp fun e h =>
      .inl (h.of_holds ⟨hS, hbelow⟩)) fun _ => .ok _
  | case5 r handshake b now g =>
    intro _
    exact failsOnly_settle <| .bind ((r.failsOnly_receiveMessage3 hlimit handshake b now g).imp
      fun e h => .inl (h.of_holds ⟨hS, hsound⟩)) fun _ => .ok _
  | case6 s plain g result s' g' hrun =>
    intro hbelow
    have hresult := (s.failsOnly_encrypt plain g).imp fun e h =>
      h.of_holds ⟨hS.toServes, hsound.sealKey, hbelow⟩
    rw [hrun] at hresult
    exact hresult.map _
  | case7 s wire result s' hrun =>
    intro _
    have hresult := (s.failsOnly_decrypt (S := S) wire).imp fun e h => h.of_holds hsound.openKey
    rw [hrun] at hresult
    exact hresult.map _
  | case8 =>
    intro _
    exact .ok _

/-- The secrets and keys that one end comes to hold have the right size. -/
theorem sound_take (hS : S.Delivers limit) (hsound : side.Sound) (event : Event ρ) :
    (side.take S event).2.Sound := by
  fun_cases take S side event with
  | case1 i b =>
    refine sound_settle hsound fun side' h => ?_
    obtain ⟨t, ht, h⟩ := bind_eq_ok.mp h
    obtain rfl := Except.ok.inj h
    exact Initiator.sound_receiveMessage2 hS ht
  | case2 t answer now g =>
    refine sound_settle hsound fun side' h => ?_
    obtain ⟨keys, -, h⟩ := bind_eq_ok.mp h
    obtain ⟨⟨c, message3⟩, hc, h⟩ := bind_eq_ok.mp h
    obtain rfl := Except.ok.inj h
    exact TrustDecision.sound_accept hS hsound.1 ⟨hc, rfl⟩
  | case3 c b =>
    refine sound_settle hsound fun side' h => ?_
    obtain ⟨s, hs, h⟩ := bind_eq_ok.mp h
    obtain rfl := Except.ok.inj h
    obtain ⟨_, -, -, rfl⟩ := Confirmation.receiveMessage4_eq_ok.mp hs
    exact Session.keyed_start hsound .initiator c.environment
  | case4 r b ocsp g =>
    refine sound_settle hsound fun side' h => ?_
    obtain ⟨⟨handshake, message2⟩, hhandshake, h⟩ := bind_eq_ok.mp h
    obtain rfl := Except.ok.inj h
    exact Responder.sound_receiveMessage1 hS ⟨hhandshake, rfl⟩
  | case5 r handshake b now g =>
    refine sound_settle hsound fun side' h => ?_
    obtain ⟨⟨timed, message4⟩, htimed, h⟩ := bind_eq_ok.mp h
    obtain rfl := Except.ok.inj h
    obtain ⟨keys, hkeys, hsession⟩ := Responder.sound_receiveMessage3 hS hsound ⟨htimed, rfl⟩
    show timed.session.Keyed
    rw [hsession]
    exact Session.keyed_start hkeys .responder r.environment
  | case6 s plain g result s' g' hrun =>
    have hkeyed := Session.Keyed.encrypt (S := S) hsound plain g
    rw [hrun] at hkeyed
    exact hkeyed
  | case7 s wire result s' hrun =>
    have hkeyed := Session.Keyed.decrypt (S := S) hsound wire
    rw [hrun] at hkeyed
    exact hkeyed
  | case8 => exact hsound

theorem sound_run (hS : S.Delivers limit) (hsound : side.Sound) (events : List (Event ρ)) :
    (side.run S events).Sound := by
  induction events generalizing side with
  | nil => exact hsound
  | cons event events ih => exact ih (sound_take hS hsound event)

/-- Whatever arrives at one end of a channel from the start of its handshake on, and whatever is
sent there: an error is a refusal of what happens, which blames nobody at this end, or a counter is
exhausted. Who judges the keys in message 2 must not blame this end either, and what is to be
encrypted must not be too long for the primitives. Their limit lies above what a handshake encrypts
on its own account. -/
theorem refused_or_exhausted (hlimit : 2048 < limit) (hS : S.Delivers limit) (hfresh : side.Fresh)
    (events : List (Event ρ)) (hfair : event.Fair) (hbelow : (side.run S events).Below limit event)
    {e : ChannelError} (h : ((side.run S events).take S event).1 = .error e) :
    (side.run S events).Refuses event e ∧ ¬ e.IsFault ∨ (side.run S events).Exhausted event e := by
  have hsound := sound_run hS hfresh.sound events
  obtain hrefuses | hexhausted := failsOnly_take hlimit hS hsound hbelow e h
  · exact .inl ⟨hrefuses, hrefuses.not_isFault hfair⟩
  · exact .inr hexhausted

/-- An initiator is sent a frame and something that is no message at all, and then a message without
a type. -/
theorem refused_or_exhausted_sample :
    let S := Suite.standard
    let limit := 2 ^ 36
    let side : Side := .initiator (Initiator.ofKeys .testing ⟨[], [], [], []⟩)
    let events : List (Event Generator) := [.decrypt [0x02], .message2 [0xf6]]
    let event : Event Generator := .message2 [0xa0]
    let e := ChannelError.malformedMessage 2 "missing MessageType"
    2048 < limit ∧ S.Delivers limit ∧ side.Fresh ∧ event.Fair ∧
      (side.run S events).Below limit event ∧ ((side.run S events).take S event).1 = .error e ∧
      ((side.run S events).Refuses event e ∧ ¬ e.IsFault ∨
        (side.run S events).Exhausted event e) := by
  intro S limit side events event e
  have hrefused {b : Bytes} {e : ChannelError}
      (h : (decodeMessage "M2" 2 b : Except ChannelError Message2) = .error e) :
      side.take S (.message2 b : Event Generator) = (.error e, side) := by
    show settle side ((decodeMessage "M2" 2 b >>= _) >>= _) = _
    rw [h]
    rfl
  have hnull : (decodeMessage "M2" 2 [0xf6] : Except ChannelError Message2) =
    .error (.malformedMessage 2 "invalid CBOR: *") := by decide +kernel
  have hempty : (decodeMessage "M2" 2 [0xa0] : Except ChannelError Message2) = .error e := by
    decide +kernel
  have hrun : side.run S events = side := by
    show (side.take S (.message2 [0xf6] : Event Generator)).2 = side
    rw [hrefused hnull]
  have htake : ((side.run S events).take S event).1 = .error e := by
    rw [hrun, hrefused hempty]
  have hlimit : 2048 < limit := by decide
  have hS : S.Delivers limit := Suite.standard_delivers limit
  have hfresh : side.Fresh := trivial
  have hfair : event.Fair := trivial
  have hbelow : (side.run S events).Below limit event := by
    rw [hrun]
    trivial
  exact ⟨hlimit, hS, hfresh, hfair, hbelow, htake,
    refused_or_exhausted hlimit hS hfresh events hfair hbelow htake⟩

end Side

end SealedTunnel
