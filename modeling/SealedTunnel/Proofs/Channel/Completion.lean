import SealedTunnel.Proofs.Channel.Primitives
import SealedTunnel.Proofs.Channel.Steps
import SealedTunnel.Proofs.Channel.Wire

/-!
# An honest handshake completes

Every message arrives as it was sent, and the responder's keys are trusted.
Then all steps succeed, and both sides end with the same keys.

* `Encapsulation.Sized`, `KeyPair.Recovers.encapsulation` — what is encapsulated is recovered.
* `HandshakeKeys.exists_derive`, `SessionKeys.exists_ofMaterial`, `SessionKeys.exists_derive` — the
  key schedule.
* `Honest` — two honest parties; `Honest.exists_decision`, `Honest.exists_accepted` and
  `Honest.exists_confirmed` take their handshake from message to message.
* `handshake_completes` — what both sides have at the end of it.
-/

namespace SealedTunnel

open Cbor (Fits)
open Draw (Yields yields_bind yields_pure yields_lift_bind yields_locked yields_bytes
  not_yields_throw)

variable {ρ : Type} {S : Suite ρ} {g g' : ρ}

/-! ## Envelopes -/

namespace Envelope

/-- What was encrypted is decrypted. -/
theorem decrypt_of_yields (hinverts : S.Inverts) (htagged : S.Tagged) {key plain envelope : Bytes}
    (h : Yields (encrypt S key plain) g envelope g') (step : String) :
    decrypt S step key envelope = .ok plain := by
  obtain ⟨hkey, -, iv, sealedText, -, hsealed, rfl⟩ := yields_encrypt.mp h
  have hiv : iv.toList.length = ivSize := Vector.length_toList
  refine decrypt_eq_ok.mpr ⟨hkey, ?_, ?_⟩
  · rw [List.length_append, hiv, htagged _ _ _ _ _ hkey hiv hsealed]
    omega
  · rw [List.take_left' hiv, List.drop_left' hiv]
    exact hinverts _ _ _ _ _ hkey hiv hsealed

/-- An envelope is longer than what is in it. -/
theorem length_of_yields (htagged : S.Tagged) {key plain envelope : Bytes}
    (h : Yields (encrypt S key plain) g envelope g') : envelope.length = plain.length + 28 := by
  obtain ⟨hkey, -, iv, sealedText, -, hsealed, rfl⟩ := yields_encrypt.mp h
  have hiv : iv.toList.length = ivSize := Vector.length_toList
  rw [List.length_append, hiv, htagged _ _ _ _ _ hkey hiv hsealed]
  show 12 + (_ + 16) = _
  omega

/-- What is not too long is encrypted. -/
theorem exists_encrypt {limit : Nat} (hserves : S.Serves limit) {key : Bytes}
    (hkey : key.length = 32) (g : ρ) {plain : Bytes} (hplain : plain.length < limit) :
    ∃ envelope g', Yields (encrypt S key plain) g envelope g' := by
  obtain ⟨iv, g', hdraw⟩ : ∃ iv g', S.draw ivSize g = (iv, g') := ⟨_, _, rfl⟩
  have hiv : iv.toList.length = ivSize := Vector.length_toList
  obtain ⟨sealedText, hsealed⟩ := hserves.encrypts key iv.toList [] plain hkey hiv hplain
  exact ⟨_, g', yields_encrypt.mpr
    ⟨hkey, hserves.unpoisoned g, iv, sealedText, hdraw, hsealed, rfl⟩⟩

end Envelope

/-! ## Encapsulation -/

theorem CurvePoint.encode_ofBytes {b : Bytes} (h : b.length = 64) :
    (CurvePoint.ofBytes b).encode = .ok b := by
  have hx : (b.take 32).length = 32 := by
    rw [List.length_take]
    omega
  have hy : (b.drop 32).length = 32 := by
    rw [List.length_drop]
    omega
  simp only [encode, ofBytes, hx, hy]
  simp only [ne_eq, not_true_eq_false, if_false, List.take_append_drop]

theorem Suite.yields_scalar {failure : ChannelError} {scalar : Bytes}
    (h : S.scalar? 100 g = (some scalar, g')) : Yields (S.scalar failure) g scalar g' := by
  have hlift : Yields (ExceptT.lift (S.scalar? 100) : Draw ρ (Option Bytes)) g (some scalar) g' :=
    ⟨congrArg Except.ok (congrArg Prod.fst h), congrArg Prod.snd h⟩
  exact yields_bind.mpr ⟨some scalar, g', hlift, yields_pure.mpr ⟨rfl, rfl⟩⟩

/-- The first draw is taken if it is usable. -/
theorem Suite.scalar?_of_valid {bytes : Vector UInt8 32} (hdraw : S.draw 32 g = (bytes, g'))
    (hvalid : S.validScalar bytes.toList = true) (attempts : Nat) :
    S.scalar? (attempts + 1) g = (some bytes.toList, g') := by
  show (if S.validScalar (S.draw 32 g).1.toList then pure (some (S.draw 32 g).1.toList)
    else S.scalar? attempts : StateM ρ (Option Bytes)) (S.draw 32 g).2 = _
  rw [hdraw, if_pos hvalid]
  rfl

/-- Both secrets and what travels have the right size. -/
structure Encapsulation.Sized (e : Encapsulation) : Prop where
  /-- the secret from key agreement has 32 bytes -/
  agreed : e.agreed.length = 32
  /-- the encapsulated secret has 32 bytes -/
  kyber : e.kyber.length = 32
  /-- the ephemeral point has 64 bytes -/
  point : ∃ b : Bytes, b.length = 64 ∧ e.point = CurvePoint.ofBytes b
  /-- the size of a ciphertext -/
  ciphertext : e.ciphertext.length = kyberCiphertextSize

/-- What is encapsulated, and from what it is made. -/
theorem Encapsulation.eq_of_yields {point : CurvePoint} {kyber : Bytes} {e : Encapsulation}
    (h : Yields (create S point kyber) g e g') : ∃ (scalar encoded shared random : Bytes),
      S.agree? scalar encoded = some shared ∧ e = {
        agreed := shared.take 32, kyber := (S.kyberEncapsulate kyber random).2
        point := CurvePoint.ofBytes (S.publicPoint scalar)
        ciphertext := (S.kyberEncapsulate kyber random).1 } := by
  simp only [create] at h
  obtain ⟨encoded, -, h⟩ := yields_lift_bind.mp h
  obtain ⟨_, -, h⟩ := yields_lift_bind.mp h
  obtain ⟨-, h⟩ := yields_locked.mp h
  obtain ⟨scalar, g₁, -, h⟩ := yields_bind.mp h
  cases hagree : S.agree? scalar encoded with
  | none =>
    rw [hagree] at h
    exact absurd h not_yields_throw
  | some shared =>
    rw [hagree] at h
    obtain ⟨random, g₂, -, h⟩ := yields_bind.mp h
    obtain ⟨rfl, -⟩ := yields_pure.mp h
    exact ⟨scalar, encoded, shared, random.toList, hagree, rfl⟩

/-- The first coordinate of a point. -/
theorem length_take_point {shared : Bytes} (h : shared.length = 64) :
    (shared.take 32).length = 32 := by
  rw [List.length_take, h]
  rfl

/-- What is encapsulated has the right size, whoever it is for. -/
theorem Encapsulation.sized_of_yields (hsized : S.Encapsulates) {point : CurvePoint} {kyber : Bytes}
    {e : Encapsulation} (h : Yields (create S point kyber) g e g') : e.Sized := by
  obtain ⟨scalar, encoded, shared, random, hagree, rfl⟩ := eq_of_yields h
  exact ⟨length_take_point (hsized.agree _ _ _ hagree), hsized.secret _ _,
    ⟨_, hsized.publicPoint scalar, rfl⟩, hsized.ciphertext _ _⟩

/-- What is encapsulated to a key pair is recovered with it. -/
theorem KeyPair.Recovers.encapsulation (hsized : S.Encapsulates)
    (hunpoisoned : S.poisoned g = false) {own : KeyPair} (hown : own.Sized)
    (h : own.Recovers S g) : ∃ (e : Encapsulation) (g' : ρ),
      Yields (Encapsulation.create S (CurvePoint.ofBytes own.point) own.kyberPublic) g e g' ∧
      Encapsulation.recover S own e.point e.ciphertext = .ok e ∧ e.Sized := by
  obtain ⟨scalar, g₁, shared, hscalar, hagree, hagree', hdecapsulate⟩ := h
  obtain ⟨random, g₂, hrandom⟩ : ∃ random g₂, S.draw 32 g₁ = (random, g₂) := ⟨_, _, rfl⟩
  rw [hrandom] at hdecapsulate
  dsimp only at hdecapsulate
  have hshared := hsized.agree _ _ _ hagree
  have hpoint := hsized.publicPoint scalar
  have hciphertext := hsized.ciphertext own.kyberPublic random.toList
  have hkyber : checkKyberKey own.kyberPublic = .ok () := if_pos hown.kyber
  refine ⟨{
    agreed := shared.take 32
    kyber := (S.kyberEncapsulate own.kyberPublic random.toList).2
    point := CurvePoint.ofBytes (S.publicPoint scalar)
    ciphertext := (S.kyberEncapsulate own.kyberPublic random.toList).1 }, g₂, ?_, ?_, ?_⟩
  · -- the sender
    simp only [Encapsulation.create]
    refine yields_lift_bind.mpr ⟨own.point, ?_, ?_⟩
    · exact CurvePoint.encode_ofBytes hown.point
    refine yields_lift_bind.mpr ⟨(), hkyber, ?_⟩
    refine yields_locked.mpr ⟨hunpoisoned, ?_⟩
    refine yields_bind.mpr ⟨scalar, g₁, Suite.yields_scalar hscalar, ?_⟩
    rw [hagree]
    exact yields_bind.mpr ⟨random, g₂, yields_bytes.mpr hrandom, yields_pure.mpr ⟨rfl, rfl⟩⟩
  · -- the receiver
    simp only [Encapsulation.recover]
    refine bind_eq_ok.mpr ⟨S.publicPoint scalar, CurvePoint.encode_ofBytes hpoint, ?_⟩
    rw [hagree']
    refine guard_eq_ok.mpr ⟨not_not_intro hciphertext, ?_⟩
    rw [hdecapsulate]
    rfl
  · exact ⟨length_take_point hshared, hsized.secret _ _, ⟨_, hpoint, rfl⟩, hciphertext⟩

/-! ## The key schedule -/

/-- Both secrets have 32 bytes. -/
structure Encapsulation.Shared (e : Encapsulation) : Prop where
  /-- the secret from key agreement -/
  agreed : e.agreed.length = 32
  /-- the encapsulated secret -/
  kyber : e.kyber.length = 32

theorem Encapsulation.Sized.shared {e : Encapsulation} (he : e.Sized) : e.Shared :=
  ⟨he.agreed, he.kyber⟩

theorem Encapsulation.Shared.secrets_eq {e : Encapsulation} (he : e.Shared) (which : String) :
    e.secrets which = .ok (e.agreed ++ e.kyber) := by
  have hchecked : ∀ {secret : Bytes} (what : String), secret.length = 32 →
      checkedSecret secret what = .ok secret := by
    intro secret what h
    have hne : secret ≠ [] := List.ne_nil_of_length_pos (by omega)
    simp only [checkedSecret]
    rw [if_neg hne, if_neg (not_not_intro h)]
  refine bind_eq_ok.mpr ⟨e.agreed, hchecked _ he.agreed, ?_⟩
  exact bind_eq_ok.mpr ⟨e.kyber, hchecked _ he.kyber, rfl⟩

theorem expand_eq {secret : Bytes} {length : Nat} (h : (S.derive secret length).length = length) :
    expand S secret length = .ok (S.derive secret length) := if_pos h

/-- The bytes of key number `i`. -/
def keyPart (material : Bytes) (i : Nat) : Bytes := (material.drop (32 * i)).take 32

theorem length_keyPart {material : Bytes} {i : Nat} (h : 32 * (i + 1) ≤ material.length) :
    (keyPart material i).length = 32 := by
  rw [keyPart, List.length_take, List.length_drop]
  omega

theorem keyAt_eq {material : Bytes} {i : Nat} (h : 32 * (i + 1) ≤ material.length) :
    keyAt material i = .ok (keyPart material i) := by
  obtain ⟨key, hread, hlist⟩ := exactly_of_length "hkdf output length" (length_keyPart h)
  exact bind_eq_ok.mpr ⟨key, hread, congrArg Except.ok hlist⟩

/-- The keys of the handshake exist. -/
theorem HandshakeKeys.exists_derive (hderive : ∀ secret, (S.derive secret 64).length = 64)
    {first : Encapsulation} (hfirst : first.Shared) :
    ∃ keys : HandshakeKeys, HandshakeKeys.derive S first = .ok keys ∧
      keys.toResponder.length = 32 ∧ keys.toInitiator.length = 32 := by
  obtain ⟨material, hmaterial, hlength⟩ : ∃ material,
      expand S (first.agreed ++ first.kyber) 64 = .ok material ∧ material.length = 64 :=
    ⟨_, expand_eq (hderive _), hderive _⟩
  refine ⟨⟨material.take 32, material.drop 32⟩, ?_, ?_, ?_⟩
  · exact bind_eq_ok.mpr ⟨_, hfirst.secrets_eq _, bind_eq_ok.mpr ⟨material, hmaterial, rfl⟩⟩
  · show (material.take 32).length = 32
    rw [List.length_take, hlength]
    rfl
  · show (material.drop 32).length = 32
    rw [List.length_drop, hlength]

/-- All keys have 32 bytes. -/
structure SessionKeys.Sized (keys : SessionKeys) : Prop where
  /-- confirms the handshake to the responder -/
  confirmToResponder : keys.confirmToResponder.length = 32
  /-- protects requests -/
  requests : keys.requests.length = 32
  /-- confirms the handshake to the initiator -/
  confirmToInitiator : keys.confirmToInitiator.length = 32
  /-- protects responses -/
  responses : keys.responses.length = 32
  /-- names the keys in every frame -/
  keyId : keys.keyId.length = 32

/-- The keys in key material for a channel. -/
def SessionKeys.ofMaterial (material : Bytes) : Except ChannelError SessionKeys := do
  return {
    confirmToResponder := ← keyAt material 0, requests := ← keyAt material 1
    confirmToInitiator := ← keyAt material 2, responses := ← keyAt material 3
    keyId := ← keyAt material 4 }

/-- They are all of it, one after the other. -/
theorem SessionKeys.exists_ofMaterial {material : Bytes} (hlength : material.length = 160) :
    ∃ keys : SessionKeys, ofMaterial material = .ok keys ∧ keys.Sized ∧
      keys.confirmToResponder ++ (keys.requests ++ (keys.confirmToInitiator ++
        (keys.responses ++ keys.keyId))) = material := by
  have hfits : ∀ i < 5, 32 * (i + 1) ≤ material.length := by omega
  have hpart (i : Nat) (hi : i < 5) := length_keyPart (hfits i hi)
  have hkey (i : Nat) (hi : i < 5) := keyAt_eq (hfits i hi)
  refine ⟨⟨keyPart material 0, keyPart material 1, keyPart material 2, keyPart material 3,
    keyPart material 4⟩, ?_, ⟨hpart 0 (by decide), hpart 1 (by decide), hpart 2 (by decide),
    hpart 3 (by decide), hpart 4 (by decide)⟩, ?_⟩
  · rw [ofMaterial, hkey 0 (by decide), hkey 1 (by decide), hkey 2 (by decide),
      hkey 3 (by decide), hkey 4 (by decide)]
    rfl
  · -- each key starts where the one before it ends
    have hnext : ∀ i, keyPart material i ++ material.drop (32 * (i + 1)) =
        material.drop (32 * i) := by
      intro i
      rw [keyPart, Nat.mul_succ, ← List.drop_drop, List.take_append_drop]
    have hlast : keyPart material 4 = material.drop (32 * 4) := by
      refine List.take_of_length_le ?_
      rw [List.length_drop]
      omega
    rw [hlast, hnext, hnext, hnext, hnext]
    rfl

/-- The keys of the channel exist. -/
theorem SessionKeys.exists_derive (hderive : ∀ secret, (S.derive secret 160).length = 160)
    {first second : Encapsulation} (hfirst : first.Shared) (hsecond : second.Shared) :
    ∃ keys : SessionKeys, SessionKeys.derive S first second = .ok keys ∧ keys.Sized := by
  obtain ⟨material, hmaterial, hlength⟩ : ∃ material,
      expand S ((first.agreed ++ first.kyber) ++ (second.agreed ++ second.kyber)) 160 =
        .ok material ∧ material.length = 160 := ⟨_, expand_eq (hderive _), hderive _⟩
  obtain ⟨keys, hkeys, hsized, -⟩ := exists_ofMaterial hlength
  refine ⟨keys, ?_, hsized⟩
  exact bind_eq_ok.mpr ⟨_, hfirst.secrets_eq _, bind_eq_ok.mpr ⟨_, hsecond.secrets_eq _,
    bind_eq_ok.mpr ⟨material, hmaterial, hkeys⟩⟩⟩

/-! ## Sizes of messages -/

theorem CurvePoint.length_write_le {b : Bytes} (h : b.length = 64) :
    (Wire.write (CurvePoint.ofBytes b)).length ≤ 256 := by
  refine Nat.le_trans (Cbor.length_writeRecord_le ?_) ?_
  · simp only [List.forall_mem_cons]
    exact ⟨by decide, by decide, by decide, nofun⟩
  · have hcurve : (Cbor.writeText "P-256").length = 6 := by decide
    have hx := Cbor.length_writeBytes_le (b.take 32)
    have hy := Cbor.length_writeBytes_le (b.drop 32)
    rw [List.length_take] at hx
    rw [List.length_drop] at hy
    simp only [CurvePoint.ofBytes, List.map_cons, List.map_nil, List.sum_cons, List.sum_nil, hcurve]
    omega

theorem Message1.fits {own : KeyPair} (hown : own.Sized) (environment : Environment) :
    Fits (Initiator.ofKeys environment own).message1 := by
  refine Fits.of_length_le (Cbor.length_writeRecord_le ?_) ?_
  · simp only [List.forall_mem_cons]
    exact ⟨by decide, by decide, by decide, nofun⟩
  · have htype : (Cbor.writeText "M1").length = 3 := by decide
    have hpoint := CurvePoint.length_write_le hown.point
    have hkyber := Cbor.length_writeBytes_le own.kyberPublic
    rw [hown.kyber, kyberKeySize] at hkyber
    simp only [List.map_cons, List.map_nil, List.sum_cons, List.sum_nil, htype]
    omega

theorem Encapsulation.Sized.length_point_le {e : Encapsulation} (he : e.Sized) :
    (Wire.write e.point).length ≤ 256 := by
  obtain ⟨b, hb, hpoint⟩ := he.point
  rw [hpoint]
  exact CurvePoint.length_write_le hb

theorem Message2.fits {first : Encapsulation} (hfirst : first.Sized) {sealedKeys : Bytes}
    (h : sealedKeys.length < 2 ^ 63 + 28) : Fits (Wire.write {
      messageType := "M2", point := first.point, ciphertext := first.ciphertext
      sealedKeys : Message2 }) := by
  refine Fits.of_length_le (Cbor.length_writeRecord_le ?_) ?_
  · simp only [List.forall_mem_cons]
    exact ⟨by decide, by decide, by decide, by decide, nofun⟩
  · have htype : (Cbor.writeText "M2").length = 3 := by decide
    have hpoint := hfirst.length_point_le
    have hciphertext := Cbor.length_writeBytes_le first.ciphertext
    have hsealed := Cbor.length_writeBytes_le sealedKeys
    rw [hfirst.ciphertext, kyberCiphertextSize] at hciphertext
    simp only [List.map_cons, List.map_nil, List.sum_cons, List.sum_nil, htype]
    omega

theorem Encapsulation.Sized.length_inner_le {second : Encapsulation} (hsecond : second.Sized) :
    (Wire.write second.inner).length ≤ 2048 := by
  refine Nat.le_trans (Cbor.length_writeRecord_le ?_) ?_
  · simp only [List.forall_mem_cons]
    exact ⟨by decide, by decide, by decide, by decide, nofun⟩
  · have hflag : (Cbor.writeBoolean false).length = 1 := rfl
    have hpoint := hsecond.length_point_le
    have hciphertext := Cbor.length_writeBytes_le second.ciphertext
    rw [hsecond.ciphertext, kyberCiphertextSize] at hciphertext
    simp only [Encapsulation.inner, List.map_cons, List.map_nil, List.sum_cons, List.sum_nil, hflag]
    omega

theorem Message3.fits {sealedInner confirmation : Bytes} (hinner : sealedInner.length ≤ 2076)
    (hconfirmation : confirmation.length = 60) :
    Fits (Wire.write { messageType := "M3", sealedInner, confirmation : Message3 }) := by
  refine Fits.of_length_le (Cbor.length_writeRecord_le ?_) ?_
  · simp only [List.forall_mem_cons]
    exact ⟨by decide, by decide, by decide, nofun⟩
  · have htype : (Cbor.writeText "M3").length = 3 := by decide
    have hsealed := Cbor.length_writeBytes_le sealedInner
    have hconfirmed := Cbor.length_writeBytes_le confirmation
    simp only [List.map_cons, List.map_nil, List.sum_cons, List.sum_nil, htype]
    omega

theorem Message4.fits {confirmation : Bytes} (hconfirmation : confirmation.length = 60) :
    Fits (Wire.write { messageType := "M4", confirmation : Message4 }) := by
  refine Fits.of_length_le (Cbor.length_writeRecord_le ?_) ?_
  · simp only [List.forall_mem_cons]
    exact ⟨by decide, by decide, nofun⟩
  · have htype : (Cbor.writeText "M4").length = 3 := by decide
    have hconfirmed := Cbor.length_writeBytes_le confirmation
    simp only [List.map_cons, List.map_nil, List.sum_cons, List.sum_nil, htype]
    omega

/-! ## The handshake -/

/-- Two honest parties. Their keys have the right sizes; the responder hands out signed keys whose
payload are its own public keys, which are trusted and have not expired; and both recover what is
encapsulated to them, where the responder's generator is in state `g₁` and the initiator's in `g₂`
when this is done. As any byte string that a machine can hold, the signed keys are shorter than
2^63 bytes. -/
structure Honest (S : Suite ρ) (environment : Environment) (own : KeyPair) (r : Responder)
    (keys : PublicKeys) (ocsp : Bytes) (now : UInt64) (g₁ g₂ : ρ) : Prop where
  /-- decryption undoes encryption -/
  inverts : S.Inverts
  /-- what the primitives return has the right size -/
  sized : S.Sized
  /-- nobody failed while drawing, and what the messages hold can be encrypted -/
  serves : S.Serves (max 2048 (Wire.write { r.signed with ocsp }).length + 1)
  /-- and so have the initiator's public keys -/
  initiator : own.Sized
  /-- and the responder's -/
  responder : r.keys.Sized
  /-- both are in one environment -/
  environment : r.environment = environment
  /-- these keys were signed -/
  signed : r.signed.publicKeys = .ok keys
  /-- the responder's key for key agreement is among them -/
  point : keys.point = CurvePoint.ofBytes r.keys.point
  /-- and its encapsulation key -/
  kyber : keys.kyber = r.keys.kyberPublic
  /-- they have not expired -/
  valid : ¬ keys.expiry < now
  /-- what is encrypted in message 2 has its place in memory -/
  small : (Wire.write { r.signed with ocsp }).length < 2 ^ 63
  /-- the initiator recovers what the responder encapsulates -/
  first : own.Recovers S g₁
  /-- the responder recovers what the initiator encapsulates -/
  second : r.keys.Recovers S g₂

namespace Honest

variable {environment : Environment} {own : KeyPair} {r : Responder} {keys : PublicKeys}
  {ocsp : Bytes} {now : UInt64} {g₁ g₂ : ρ}

/-- What the parties make themselves can be encrypted. -/
theorem encrypts (h : Honest S environment own r keys ocsp now g₁ g₂) (g : ρ) {key plain : Bytes}
    (hkey : key.length = 32) (hplain : plain.length ≤ 2048) :
    ∃ envelope g', Yields (Envelope.encrypt S key plain) g envelope g' :=
  Envelope.exists_encrypt h.serves hkey g
    (Nat.lt_succ_of_le (Nat.le_trans hplain (Nat.le_max_left _ _)))

theorem length_hash_le (h : Honest S environment own r keys ocsp now g₁ g₂) (b : Bytes) :
    (S.hash b).length ≤ 2048 := by
  rw [h.sized.hash]
  decide

/-- Message 1 is answered, and the initiator opens the answer. -/
theorem exists_decision (h : Honest S environment own r keys ocsp now g₁ g₂) :
    let i := Initiator.ofKeys environment own
    ∃ (g₁' : ρ) (a : r.Answered S i.message1 ocsp g₁ g₁'),
      a.first.Sized ∧ a.handshakeKeys.toResponder.length = 32 ∧ Fits (Wire.write a.message2) ∧
      i.receiveMessage2 S (Wire.write a.message2) = .ok {
        environment, message1 := i.message1, message2 := Wire.write a.message2, first := a.first
        handshakeKeys := a.handshakeKeys, signed := { r.signed with ocsp } } := by
  intro i
  obtain ⟨first, g₁', hcreate, hrecover, hfirst⟩ :=
    h.first.encapsulation h.sized.toEncapsulates (h.serves.unpoisoned g₁) h.initiator
  obtain ⟨handshakeKeys, hderive, hresponder, hinitiator⟩ :=
    HandshakeKeys.exists_derive (h.sized.derive · 64) hfirst.shared
  obtain ⟨sealedKeys, g₁'', hsealed⟩ := Envelope.exists_encrypt h.serves hinitiator g₁'
    (Nat.lt_succ_of_le (Nat.le_max_right 2048 (Wire.write { r.signed with ocsp }).length))
  have hsealedLe : sealedKeys.length < 2 ^ 63 + 28 := by
    have hlength := Envelope.length_of_yields h.sized.tagged hsealed
    have hsmall := h.small
    omega
  let m1 : Message1 := {
    messageType := "M1", point := CurvePoint.ofBytes own.point, kyber := own.kyberPublic }
  have hfits1 := Message1.fits h.initiator environment
  have hdecode : decodeMessage "M1" 1 i.message1 = .ok m1 :=
    decodeMessage_write Wire.roundTrips_message1 (Wire.announced_message1 hfits1) hfits1
  let a : r.Answered S i.message1 ocsp g₁ g₁'' := {
    message := m1, first, g₁ := g₁', handshakeKeys, sealedKeys, decoded := hdecode
    created := hcreate, derived := hderive, encrypted := hsealed }
  have hfits2 : Fits (Wire.write a.message2) := Message2.fits hfirst hsealedLe
  have hfits : Fits (Wire.write { r.signed with ocsp }) :=
    Fits.of_length_le (Nat.le_of_lt h.small) (by omega)
  refine ⟨g₁'', a, hfirst, hresponder, hfits2, ?_⟩
  exact Initiator.receiveMessage2_eq_ok.mpr ⟨a.message2, first, handshakeKeys, _, _,
    decodeMessage_write Wire.roundTrips_message2 (Wire.announced_message2 hfits2) hfits2,
    hrecover, hderive, Envelope.decrypt_of_yields h.inverts h.sized.tagged hsealed _,
    Wire.roundTrips_signedKeys.decode_eq_ok hfits, rfl⟩

/-- The initiator goes on with the responder's keys, and the responder finds what it was sent. -/
theorem exists_accepted (h : Honest S environment own r keys ocsp now g₁ g₂)
    {first : Encapsulation} (hfirst : first.Sized) {handshakeKeys : HandshakeKeys}
    (hresponder : handshakeKeys.toResponder.length = 32)
    (hderive : HandshakeKeys.derive S first = .ok handshakeKeys) (message1 message2 : Bytes)
    (signed : SignedKeys) :
    let decision : TrustDecision := {
      environment, message1, message2, first, handshakeKeys, signed }
    ∃ (g₂' : ρ) (a : decision.Accepted S keys now g₂ g₂')
      (b : r.Accepted S { first, transcript := message1 ++ message2 } (Wire.write a.message3)),
      b.message = a.message3 ∧ b.keys = a.keys ∧ a.keys.confirmToInitiator.length = 32 := by
  intro decision
  obtain ⟨second, g₂', hcreate, hrecover, hsecond⟩ :=
    h.second.encapsulation h.sized.toEncapsulates (h.serves.unpoisoned g₂) h.responder
  rw [← h.point, ← h.kyber] at hcreate
  obtain ⟨sessionKeys, hschedule, hkeys⟩ :=
    SessionKeys.exists_derive (h.sized.derive · 160) hfirst.shared hsecond.shared
  have htagged := h.sized.tagged
  have hinnerLe := hsecond.length_inner_le
  obtain ⟨sealedInner, g₃, hinner⟩ := h.encrypts g₂' hresponder hinnerLe
  obtain ⟨confirmation, g₄, hconfirmation⟩ := h.encrypts g₃ hkeys.confirmToResponder
    (h.length_hash_le (message1 ++ message2 ++ sealedInner))
  have hlength := Envelope.length_of_yields htagged hconfirmation
  rw [h.sized.hash] at hlength
  have hsealedLe : sealedInner.length ≤ 2076 := by
    have hinnerLength := Envelope.length_of_yields htagged hinner
    omega
  let a : decision.Accepted S keys now g₂ g₄ := {
    second, g₁ := g₂', keys := sessionKeys, sealedInner, g₂ := g₃, confirmation, valid := h.valid
    created := hcreate, scheduled := hschedule, encrypted := hinner, confirmed := hconfirmation }
  have hfits : Fits (Wire.write a.message3) := Message3.fits hsealedLe hlength
  have hfitsInner : Fits (Wire.write second.inner) := Fits.of_length_le hinnerLe (by omega)
  exact ⟨g₄, a, {
    handshakeKeys, message := a.message3, payload := Wire.write second.inner
    inner := second.inner, second, keys := sessionKeys, derived := hderive
    decoded := decodeMessage_write Wire.roundTrips_message3 (Wire.announced_message3 hfits) hfits
    opened := Envelope.decrypt_of_yields h.inverts htagged hinner _
    understood := Wire.roundTrips_message3Inner.decode_eq_ok hfitsInner
    supported := Bool.false_ne_true
    recovered := hrecover, scheduled := hschedule
    confirmed := Envelope.decrypt_of_yields h.inverts htagged hconfirmation _ }, rfl, rfl,
    hkeys.confirmToInitiator⟩

/-- The responder's confirmation is accepted. -/
theorem exists_confirmed (h : Honest S environment own r keys ocsp now g₁ g₂) (g₃ : ρ)
    {c : Confirmation} (hkey : c.keys.confirmToInitiator.length = 32) {transcript : Bytes}
    (hexpected : c.expected = S.hash transcript) : ∃ (confirmation : Bytes) (g₃' : ρ),
      let sent : Message4 := { messageType := "M4", confirmation }
      Yields (Envelope.encrypt S c.keys.confirmToInitiator (S.hash transcript)) g₃
        confirmation g₃' ∧ decodeMessage "M4" 4 (Wire.write sent) = .ok sent ∧
      c.receiveMessage4 S (Wire.write sent) =
        .ok (Session.start .initiator c.environment c.keys) := by
  obtain ⟨confirmation, g₃', hconfirmation⟩ := h.encrypts g₃ hkey (h.length_hash_le transcript)
  have hlength := Envelope.length_of_yields h.sized.tagged hconfirmation
  rw [h.sized.hash] at hlength
  let sent : Message4 := { messageType := "M4", confirmation }
  have hfits : Fits (Wire.write sent) := Message4.fits hlength
  have hdecode : decodeMessage "M4" 4 (Wire.write sent) = .ok sent :=
    decodeMessage_write Wire.roundTrips_message4 (Wire.announced_message4 hfits) hfits
  refine ⟨confirmation, g₃', hconfirmation, hdecode, ?_⟩
  refine Confirmation.receiveMessage4_eq_ok.mpr ⟨sent, hdecode, ?_, rfl⟩
  rw [hexpected]
  exact Envelope.decrypt_of_yields h.inverts h.sized.tagged hconfirmation _

end Honest

/-- Between two honest parties every step succeeds, from any state of their generators in which
what is encapsulated is recovered. The initiator is shown the signed keys with the revocation status
stapled to them, and both sides end with the same keys: each seals under the key that the other one
opens with. -/
theorem handshake_completes {environment : Environment} {own : KeyPair} {r : Responder}
    {keys : PublicKeys} {ocsp : Bytes} {now : UInt64} {g₁ g₂ : ρ}
    (h : Honest S environment own r keys ocsp now g₁ g₂) (now' : UInt64) (g₃ : ρ) :
    let i := Initiator.ofKeys environment own
    ∃ (handshake : Handshake) (message2 : Bytes) (g₁' : ρ) (decision : TrustDecision)
      (c : Confirmation) (message3 : Bytes) (g₂' : ρ) (timed : TimedSession) (message4 : Bytes)
      (g₃' : ρ) (session : Session),
      Yields (r.receiveMessage1 S i.message1 ocsp) g₁ (handshake, message2) g₁' ∧
      i.receiveMessage2 S message2 = .ok decision ∧
      decision.signed = { r.signed with ocsp } ∧ decision.signed.publicKeys = .ok keys ∧
      Yields (decision.accept S keys now) g₂ (c, message3) g₂' ∧
      Yields (r.receiveMessage3 S handshake message3 now') g₃ (timed, message4) g₃' ∧
      c.receiveMessage4 S message4 = .ok session ∧
      session = Session.start .initiator environment c.keys ∧
      timed.session = Session.start .responder environment c.keys ∧
      session.keyId = timed.session.keyId ∧
      session.sealKey = c.keys.requests ∧ timed.session.openKey = c.keys.requests ∧
      session.openKey = c.keys.responses ∧ timed.session.sealKey = c.keys.responses := by
  intro i
  obtain ⟨g₁', answered, hfirst, hkey, -, hopened⟩ := h.exists_decision
  obtain ⟨g₂', accepted, found, -, hkeys, hkey'⟩ := h.exists_accepted hfirst hkey answered.derived
    i.message1 (Wire.write answered.message2) { r.signed with ocsp }
  obtain ⟨confirmation, g₃', hconfirmation, -, hsession⟩ :=
    h.exists_confirmed g₃ (c := accepted.awaited) hkey' rfl
  have hanswered := Responder.yields_receiveMessage1.mpr ⟨answered, rfl, rfl⟩
  have haccepted := TrustDecision.yields_accept.mpr ⟨accepted, rfl, rfl⟩
  -- both sides derived the same keys, so the confirmation is made under the key that is expected
  have hsame : accepted.awaited.keys = found.keys := hkeys.symm
  rw [hsame] at hconfirmation
  have hfinished : Yields (r.receiveMessage3 S _ _ now') g₃ _ g₃' :=
    Responder.yields_receiveMessage3.mpr ⟨found, confirmation, hconfirmation, rfl, rfl⟩
  rw [← hsame, h.environment] at hfinished
  exact ⟨_, _, g₁', _, _, _, g₂', _, _, g₃', _, hanswered, hopened, rfl, h.signed, haccepted,
    hfinished, hsession, rfl, rfl, rfl, rfl, rfl, rfl, rfl⟩

/-! ### A handshake with small numbers -/

/-- The number one in `n` bytes. -/
def oneBytes (n : Nat) : Vector UInt8 n := ⟨(Bytes.ofNat n 1).toArray, by simp⟩

variable (kyber found : Bytes × Bytes)

/-- A key pair with these keys for key encapsulation. Its private key for key agreement is one. -/
def KeyPair.sample : KeyPair where
  scalar := Bytes.ofNat 32 1
  point := P256.encode P256.base
  kyberSecret := kyber.2
  kyberPublic := kyber.1

/-- The public keys of a responder with this key pair. -/
def PublicKeys.sample : PublicKeys where
  issued := 1000
  expiry := 2000
  comment := ""
  point := CurvePoint.ofBytes (P256.encode P256.base)
  kyber := kyber.1

/-- A responder with this key pair. -/
def Responder.sample : Responder where
  environment := .testing
  signed := {
    payload := Wire.write (PublicKeys.sample kyber), signature := [], certHash := [], version := 1
    ocsp := [] }
  keys := KeyPair.sample kyber

/-- The primitives with a generator that draws nothing but ones. The secret in one ciphertext is
looked up. -/
def Suite.sample : Suite Generator := {
  Suite.standard with
  draw := fun n g => (oneBytes n, g)
  kyberDecapsulate := fun secretKey ciphertext =>
    if ciphertext = found.1 then found.2 else Kyber.decapsulate secretKey ciphertext }

variable {kyber found}

theorem Suite.sample_inverts : (Suite.sample found).Inverts := Suite.standard_inverts

theorem Suite.sample_sized : (Suite.sample found).Sized :=
  have h := Suite.standard_sized
  ⟨⟨h.publicPoint, h.agree, h.ciphertext, h.secret⟩, h.tagged, h.hash, h.derive⟩

theorem Suite.sample_serves (limit : Nat) : (Suite.sample found).Serves limit :=
  have h := Suite.standard_serves limit
  ⟨h.unpoisoned, h.encrypts⟩

/-- What is drawn is usable as a private key. -/
theorem Suite.sample_valid : (Suite.sample found).validScalar (oneBytes 32).toList = true := by
  have hone : (oneBytes 32).toList = Bytes.ofNat 32 1 := rfl
  have hvalidScalar : (Suite.sample found).validScalar = P256.validScalar := rfl
  have hvalid : P256.validScalar (Bytes.ofNat 32 1) = true := by decide +kernel
  rw [hone, hvalidScalar, hvalid]

/-- And its public point is the base point. -/
theorem Suite.sample_publicPoint :
    (Suite.sample found).publicPoint (oneBytes 32).toList = P256.encode P256.base := by
  have hone : (oneBytes 32).toList = Bytes.ofNat 32 1 := rfl
  have hpublicPoint : (Suite.sample found).publicPoint = P256.publicKey := rfl
  have hpublic : P256.publicKey (Bytes.ofNat 32 1) = P256.encode P256.base := by decide +kernel
  rw [hone, hpublicPoint, hpublic]

theorem KeyPair.sample_recovers (hfound : Kyber.encapsulate kyber.1 (oneBytes 32).toList = found)
    (g : Generator) : (KeyPair.sample kyber).Recovers (Suite.sample found) g := by
  -- what is computed on the curve is decided about numbers and then folded back
  have hone : (oneBytes 32).toList = Bytes.ofNat 32 1 := rfl
  have hpoint : (KeyPair.sample kyber).point = P256.encode P256.base := rfl
  have hagree? : (Suite.sample found).agree? = P256.agree? := rfl
  have hagree : P256.agree? (Bytes.ofNat 32 1) (P256.encode P256.base) =
    some (P256.encode P256.base) := by decide +kernel
  rw [← hone, ← hpoint, ← hagree?] at hagree
  have hdraw : (Suite.sample found).draw 32 g = (oneBytes 32, g) := rfl
  have hagree' : (Suite.sample found).agree? (KeyPair.sample kyber).scalar
      ((Suite.sample found).publicPoint (oneBytes 32).toList) =
        some (KeyPair.sample kyber).point := by
    rw [Suite.sample_publicPoint]
    exact hagree
  refine ⟨_, g, _, Suite.scalar?_of_valid hdraw Suite.sample_valid 99, hagree, hagree', ?_⟩
  show (if (Kyber.encapsulate kyber.1 (oneBytes 32).toList).1 = found.1 then found.2 else _) =
    (Kyber.encapsulate kyber.1 (oneBytes 32).toList).2
  rw [hfound, if_pos rfl]

/-- The sample key pair is what is generated. -/
theorem Initiator.start_sample (hkyber : Kyber.generate (oneBytes 64).toList = kyber)
    (g : Generator) : Yields (start (Suite.sample found) .testing) g
      (ofKeys .testing (KeyPair.sample kyber)) g := by
  have hdraw : (Suite.sample found).draw 32 g = (oneBytes 32, g) := rfl
  have hrandom : (Suite.sample found).draw 64 g = (oneBytes 64, g) := rfl
  have hgenerate : (Suite.sample found).kyberGenerate (oneBytes 64).toList = kyber := hkyber
  have hkeys : Yields (KeyPair.generate (Suite.sample found)) g (KeyPair.sample kyber) g := by
    simp only [KeyPair.generate]
    refine yields_locked.mpr ⟨rfl, ?_⟩
    refine yields_bind.mpr ⟨_, g,
      Suite.yields_scalar (Suite.scalar?_of_valid hdraw Suite.sample_valid 99), ?_⟩
    refine yields_bind.mpr ⟨_, g, yields_bytes.mpr hrandom, ?_⟩
    refine yields_pure.mpr ⟨?_, rfl⟩
    rw [KeyPair.sample, KeyPair.mk.injEq]
    exact ⟨rfl, Suite.sample_publicPoint, congrArg Prod.snd hgenerate, congrArg Prod.fst hgenerate⟩
  exact yields_bind.mpr ⟨_, g, hkeys, yields_pure.mpr ⟨rfl, rfl⟩⟩

theorem PublicKeys.length_sample_le (hkyber : kyber.1.length = kyberKeySize) :
    (Wire.write (PublicKeys.sample kyber)).length ≤ 2048 := by
  refine Nat.le_trans (Cbor.length_writeRecord_le ?_) ?_
  · simp only [List.forall_mem_cons]
    exact ⟨by decide, by decide, by decide, by decide, by decide, nofun⟩
  · have hcomment : (Cbor.writeText "").length = 1 := by decide
    have hissued := Cbor.Head.length_write_le 0 (1000 : UInt64).toNat
    have hexpiry := Cbor.Head.length_write_le 0 (2000 : UInt64).toNat
    have hpoint := CurvePoint.length_write_le (P256.length_encode P256.base)
    have hwritten := Cbor.length_writeBytes_le kyber.1
    rw [hkyber, kyberKeySize] at hwritten
    simp only [PublicKeys.sample, Cbor.writeNatural, List.map_cons, List.map_nil, List.sum_cons,
      List.sum_nil, hcomment]
    omega

theorem Responder.length_sample_le (hkyber : kyber.1.length = kyberKeySize) :
    (Wire.write { (Responder.sample kyber).signed with ocsp := [0x30] }).length ≤ 4096 := by
  refine Nat.le_trans (Cbor.length_writeRecord_le ?_) ?_
  · simp only [List.forall_mem_cons]
    exact ⟨by decide, by decide, by decide, by decide, by decide, nofun⟩
  · have hpayload := PublicKeys.length_sample_le hkyber
    have hwritten := Cbor.length_writeBytes_le (Wire.write (PublicKeys.sample kyber))
    have hempty : (Cbor.writeBytes []).length = 1 := rfl
    have hocsp : (Cbor.writeBytes [0x30]).length = 2 := rfl
    have hversion : (Cbor.writeNatural (1 : UInt64).toNat).length = 1 := rfl
    simp only [Responder.sample, List.map_cons, List.map_nil, List.sum_cons, List.sum_nil, hempty,
      hocsp, hversion]
    omega

/-- The sample parties are honest. -/
theorem honest_sample (hkyber : kyber.1.length = kyberKeySize)
    (hfound : Kyber.encapsulate kyber.1 (oneBytes 32).toList = found) (g : Generator) :
    Honest (Suite.sample found) .testing (KeyPair.sample kyber) (Responder.sample kyber)
      (PublicKeys.sample kyber) [0x30] 1500 g g where
  inverts := Suite.sample_inverts
  sized := Suite.sample_sized
  serves := Suite.sample_serves _
  initiator := ⟨P256.length_encode _, hkyber⟩
  responder := ⟨P256.length_encode _, hkyber⟩
  environment := rfl
  signed := by
    have hlength := PublicKeys.length_sample_le hkyber
    have hfits : Fits (Wire.write (PublicKeys.sample kyber)) :=
      Fits.of_length_le hlength (by omega)
    have hdecode := Wire.roundTrips_publicKeys.decode_eq_ok hfits
    simp only [SignedKeys.publicKeys, Responder.sample]
    rw [hdecode]
  point := rfl
  kyber := rfl
  valid := by
    show ¬ (2000 : UInt64) < 1500
    decide
  small := by
    have hlength := Responder.length_sample_le hkyber
    omega
  first := KeyPair.sample_recovers hfound g
  second := KeyPair.sample_recovers hfound g

/-- The sample parties complete their handshake. -/
theorem handshake_completes_sample :
    let kyber := Kyber.generate (Bytes.ofNat 64 1)
    let S := Suite.sample (Kyber.encapsulate kyber.1 (oneBytes 32).toList)
    let r := Responder.sample kyber
    let i := Initiator.ofKeys .testing (KeyPair.sample kyber)
    let g := Generator.ofSeed 7
    Honest S .testing (KeyPair.sample kyber) r (PublicKeys.sample kyber) [0x30] 1500 g g ∧
      ∃ (handshake : Handshake) (message2 : Bytes) (g₁' : Generator) (decision : TrustDecision)
        (c : Confirmation) (message3 : Bytes) (g₂' : Generator) (timed : TimedSession)
        (message4 : Bytes) (g₃' : Generator) (session : Session),
        Yields (r.receiveMessage1 S i.message1 [0x30]) g (handshake, message2) g₁' ∧
        i.receiveMessage2 S message2 = .ok decision ∧
        decision.signed = { r.signed with ocsp := [0x30] } ∧
        decision.signed.publicKeys = .ok (PublicKeys.sample kyber) ∧
        Yields (decision.accept S (PublicKeys.sample kyber) 1500) g (c, message3) g₂' ∧
        Yields (r.receiveMessage3 S handshake message3 1600) g (timed, message4) g₃' ∧
        c.receiveMessage4 S message4 = .ok session ∧
        session = Session.start .initiator .testing c.keys ∧
        timed.session = Session.start .responder .testing c.keys ∧
        session.keyId = timed.session.keyId ∧
        session.sealKey = c.keys.requests ∧ timed.session.openKey = c.keys.requests ∧
        session.openKey = c.keys.responses ∧ timed.session.sealKey = c.keys.responses := by
  intro kyber S r i g
  have h := honest_sample (Kyber.length_generate (Bytes.ofNat 64 1)) rfl g
  exact ⟨h, handshake_completes h 1600 g⟩

end SealedTunnel
