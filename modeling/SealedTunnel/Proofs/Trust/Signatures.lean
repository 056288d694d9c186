import SealedTunnel.Proofs.Channel.Wire
import SealedTunnel.Proofs.Trust.Dialogue
import SealedTunnel.Trust.Signer
import SealedTunnel.Trust.Store

/-!
# What is signed is what is verified

A responder signs its keys and writes the two numbers of the signature in 32 bytes each. Whoever
judges them takes the numbers out again, and is not to see a difference even where a number is
short.

* `signaturePart_eq_ok` — a number in 32 bytes.
* `PublicKeys.run_sign` — everything that signing does.
* `SignatureCheck`, `ends_verifySignature` — everything that checking a signature does.
* `TrustStore.asks_certificate` — what comes after the check that the certificate is the named one.
* `PublicKeys.sign_verifies` — the one after the other.
-/

namespace SealedTunnel

variable {ρ : Type} {S : Suite ρ} {d : List Exchange}

/-! ## Signing -/

theorem signaturePart_eq_ok {n : Nat} {b : Bytes} :
    signaturePart n = .ok b ↔ n < 256 ^ 32 ∧ b = Bytes.ofNat 32 n := by
  simp only [signaturePart]
  split
  · rename_i hn
    exact ⟨fun h => ⟨hn, (Except.ok.inj h).symm⟩, fun h => congrArg Except.ok h.2.symm⟩
  · rename_i hn
    exact ⟨fun h => (nomatch h), fun h => absurd h.1 hn⟩

theorem signaturePart_of_le {n : Nat} (h : 256 ^ 32 ≤ n) :
    signaturePart n = .error (.internal "ecdsa sig") := if_neg (Nat.not_lt.mpr h)

/-- The signed form of public keys, with a signature of two numbers. -/
def PublicKeys.signedAs (S : Suite ρ) (keys : PublicKeys) (cert : Bytes) (version : UInt64)
    (r s : Nat) : SignedKeys where
  payload := Wire.write keys
  signature := Bytes.ofNat 32 r ++ Bytes.ofNat 32 s
  certHash := S.hash cert
  version := version
  ocsp := []

/-- The same, if the two numbers fit. -/
def PublicKeys.assemble (S : Suite ρ) (keys : PublicKeys) (cert : Bytes) (version : UInt64)
    (r s : Nat) : Except ChannelError SignedKeys :=
  if r < 256 ^ 32 ∧ s < 256 ^ 32 then .ok (keys.signedAs S cert version r s)
  else .error (.internal "ecdsa sig")

theorem PublicKeys.bind_signatureParts (keys : PublicKeys) (cert : Bytes) (version : UInt64)
    (r s : Nat) :
    (do
      let first ← signaturePart r
      let second ← signaturePart s
      return { keys.signedAs S cert version r s with signature := first ++ second } :
      Check SignedKeys) = liftM (keys.assemble S cert version r s) := by
  simp only [assemble]
  by_cases hr : r < 256 ^ 32
  · by_cases hs : s < 256 ^ 32
    · rw [signaturePart_eq_ok.mpr ⟨hr, rfl⟩, signaturePart_eq_ok.mpr ⟨hs, rfl⟩, if_pos ⟨hr, hs⟩]
      rfl
    · rw [signaturePart_eq_ok.mpr ⟨hr, rfl⟩, signaturePart_of_le (Nat.not_lt.mp hs),
        if_neg fun h => hs h.2]
      rfl
  · rw [signaturePart_of_le (Nat.not_lt.mp hr), if_neg fun h => hr h.1]
    rfl

/-- Signing as a tree of questions: the written form of the keys is all that is signed. -/
theorem PublicKeys.run_sign (S : Suite ρ) (keys : PublicKeys) (cert : Bytes) (version : UInt64) :
    (keys.sign S cert version).run = .asking (.sign .sha256 (Wire.write keys)) fun
      | .error _ => .done (.error (.internal "signer"))
      | .ok (.error _) => .done (.error (.internal "sign"))
      | .ok (.ok encoded) => .asking (.decodeSignature encoded) fun
        | .error _ => .done (.error (.internal "ecdsa sig"))
        | .ok (r, s) => .done (keys.assemble S cert version r s) := by
  refine congrArg (Consult.asking _) (funext fun answered => ?_)
  rcases answered with reason | (reason | encoded)
  · rfl
  · rfl
  · refine congrArg (Consult.asking _) (funext fun decoded => ?_)
    rcases decoded with reason | ⟨r, s⟩
    · rfl
    · exact congrArg ExceptT.run (keys.bind_signatureParts cert version r s)

/-! ## Checking -/

/-- How a check of the signature `(r, s)` of a payload goes. The authority encodes the two numbers,
and is then asked about the key, the payload and the encoding. -/
inductive SignatureCheck (key : VerifyingKey) (payload : Bytes) (r s : Nat) :
    List Exchange → Except ChannelError Unit → Prop where
  /-- there is no encoding -/
  | unencoded (reason : String) : SignatureCheck key payload r s
      [⟨.encodeSignature r s, .error reason⟩] (.error (.signatureInvalid reason))
  /-- it cannot be checked with this key -/
  | unprepared (encoded : Bytes) (reason : String) : SignatureCheck key payload r s
      [⟨.encodeSignature r s, .ok encoded⟩, ⟨.verify .sha256 key payload encoded, .error reason⟩]
      (.error (.signatureInvalid reason))
  /-- the signature holds -/
  | accepted (encoded : Bytes) : SignatureCheck key payload r s
      [⟨.encodeSignature r s, .ok encoded⟩, ⟨.verify .sha256 key payload encoded, .ok (.ok true)⟩]
      (.ok ())
  /-- it does not -/
  | rejected (encoded : Bytes) : SignatureCheck key payload r s
      [⟨.encodeSignature r s, .ok encoded⟩, ⟨.verify .sha256 key payload encoded, .ok (.ok false)⟩]
      (.error (.signatureInvalid "signature over signed_pub_keys does not verify"))
  /-- or its check goes wrong, which counts as much -/
  | unchecked (encoded : Bytes) (reason : String) : SignatureCheck key payload r s
      [⟨.encodeSignature r s, .ok encoded⟩,
        ⟨.verify .sha256 key payload encoded, .ok (.error reason)⟩]
      (.error (.signatureInvalid "signature over signed_pub_keys does not verify"))

/-- A signature of the right size is taken apart in the middle. -/
theorem ends_verifySignature {key : VerifyingKey} {payload first second : Bytes}
    (hfirst : first.length = 32) (hsecond : second.length = 32) {x : Except ChannelError Unit} :
    Consult.Ends (verifySignature key payload (first ++ second)).run d x ↔
      SignatureCheck key payload (Bytes.toNat first) (Bytes.toNat second) d x := by
  have hlength : ¬ (first ++ second).length ≠ 2 * signatureHalf := by
    rw [List.length_append, hfirst, hsecond]
    decide
  rw [verifySignature, if_neg hlength]
  simp only [signatureHalf]
  rw [List.take_left' hfirst, List.drop_left' hfirst]
  constructor
  · rintro ⟨reason | encoded, rest, rfl, h⟩
    · obtain ⟨rfl, rfl⟩ := h
      exact .unencoded reason
    · obtain ⟨reason | (reason | valid), rest, rfl, h⟩ := h
      · obtain ⟨rfl, rfl⟩ := h
        exact .unprepared encoded reason
      · obtain ⟨rfl, rfl⟩ := h
        exact .unchecked encoded reason
      · cases valid with
        | true =>
          obtain ⟨rfl, rfl⟩ := h
          exact .accepted encoded
        | false =>
          obtain ⟨rfl, rfl⟩ := h
          exact .rejected encoded
  · rintro (reason | ⟨encoded, reason⟩ | encoded | encoded | ⟨encoded, reason⟩)
    · exact ⟨.error reason, [], rfl, rfl, rfl⟩
    · exact ⟨.ok encoded, _, rfl, .error reason, [], rfl, rfl, rfl⟩
    · exact ⟨.ok encoded, _, rfl, .ok (.ok true), [], rfl, rfl, rfl⟩
    · exact ⟨.ok encoded, _, rfl, .ok (.ok false), [], rfl, rfl, rfl⟩
    · exact ⟨.ok encoded, _, rfl, .ok (.error reason), [], rfl, rfl, rfl⟩

/-- The certificate is looked at if it is the one that was named. -/
theorem TrustStore.asks_certificate {store : TrustStore} {required : Der.Oid} {signed : SignedKeys}
    {data : CertData} {now : Int} {x : Except ChannelError PublicKeys}
    (hbound : S.hash data.cert = signed.certHash)
    (h : Consult.Ends (store.verify S required signed data now).run d x) :
    ∃ answer rest, d = ⟨.certificate data.cert, answer⟩ :: rest := by
  rw [verify, if_neg (not_not_intro hbound)] at h
  obtain ⟨answer, rest, rfl, -⟩ := h
  exact ⟨answer, rest, rfl⟩

/-! ## The one after the other -/

/-- Whoever judges the signed keys finds in them what they were made of. -/
structure SignedKeys.Shows (S : Suite ρ) (signed : SignedKeys) (keys : PublicKeys) (cert : Bytes)
    (r s : Nat) : Prop where
  /-- the certificate is the one that was named, so it is looked at -/
  bound : ∀ (store : TrustStore) required data now d x, data.cert = cert →
    Consult.Ends (store.verify S required signed data now).run d x →
    ∃ answer rest, d = ⟨.certificate cert, answer⟩ :: rest
  /-- the signature is checked by its two numbers, over the bytes that were signed -/
  checked : ∀ key d x, Consult.Ends (verifySignature key signed.payload signed.signature).run d x ↔
    SignatureCheck key (Wire.write keys) r s d x
  /-- the public keys are read back -/
  returned : Cbor.Fits (Wire.write keys) → signed.publicKeys = .ok keys

/-- Leading zeros take up their room, so the two numbers stay apart. -/
theorem PublicKeys.shows_signedAs {r s : Nat} (hr : r < 256 ^ 32) (hs : s < 256 ^ 32)
    (keys : PublicKeys) (cert : Bytes) (version : UInt64) :
    (keys.signedAs S cert version r s).Shows S keys cert r s where
  bound := by
    rintro store required data now d x rfl h
    exact TrustStore.asks_certificate rfl h
  checked := by
    intro key d x
    have hcheck : Consult.Ends (verifySignature key (Wire.write keys)
        (Bytes.ofNat 32 r ++ Bytes.ofNat 32 s)).run d x ↔ _ :=
      ends_verifySignature (Bytes.length_ofNat 32 r) (Bytes.length_ofNat 32 s)
    rwa [Bytes.toNat_ofNat 32 r hr, Bytes.toNat_ofNat 32 s hs] at hcheck
  returned := by
    intro hfits
    have hread : Wire.decode (keys.signedAs S cert version r s).payload = .ok keys :=
      Wire.roundTrips_publicKeys.decode_eq_ok hfits
    rw [SignedKeys.publicKeys, hread]

/-- Public keys are signed in their written form, whoever signs, and the two numbers of the
signature are taken from its encoding. If both fit into 32 bytes, there are signed keys, and they
show what they were made of. Otherwise there are none. -/
theorem PublicKeys.sign_verifies {σ : Type} (answer : (q : Question) → σ → q.Answer × σ) (state : σ)
    (S : Suite ρ) (keys : PublicKeys) (cert : Bytes) (version : UInt64) :
    let signing := (keys.sign S cert version).run
    let result := (signing.run answer state).1
    let trace := signing.trace answer state
    let answered := answer (.sign .sha256 (Wire.write keys)) state
    (∀ reason, answered.1 = .error reason →
      trace = [.sign .sha256 (Wire.write keys)] ∧ result = .error (.internal "signer")) ∧
    (∀ reason, answered.1 = .ok (.error reason) →
      trace = [.sign .sha256 (Wire.write keys)] ∧ result = .error (.internal "sign")) ∧
    ∀ encoded, answered.1 = .ok (.ok encoded) →
      let decoded := (answer (.decodeSignature encoded) answered.2).1
      trace = [.sign .sha256 (Wire.write keys), .decodeSignature encoded] ∧
      (∀ reason, decoded = .error reason → result = .error (.internal "ecdsa sig")) ∧
      ∀ r s, decoded = .ok (r, s) →
        (2 ^ 256 ≤ r ∨ 2 ^ 256 ≤ s → result = .error (.internal "ecdsa sig")) ∧
        (r < 2 ^ 256 → s < 2 ^ 256 → ∃ signed, result = .ok signed ∧
          signed.version = version ∧ signed.ocsp = [] ∧ signed.Shows S keys cert r s) := by
  intro signing result trace answered
  simp only [result, trace, signing, run_sign, Consult.run, Consult.trace]
  rcases hanswered : answered.1 with reason | (reason | encoded)
  · exact ⟨fun _ _ => ⟨rfl, rfl⟩, nofun, nofun⟩
  · exact ⟨nofun, fun _ _ => ⟨rfl, rfl⟩, nofun⟩
  refine ⟨nofun, nofun, fun encoded' hencoded => ?_⟩
  obtain rfl : encoded = encoded' := Except.ok.inj (Except.ok.inj hencoded)
  simp only [Consult.run, Consult.trace]
  rcases hdecoded : (answer (.decodeSignature encoded) answered.2).1 with reason | ⟨r, s⟩
  · exact ⟨rfl, fun _ _ => rfl, nofun⟩
  refine ⟨rfl, nofun, fun r' s' hnumbers => ?_⟩
  obtain ⟨rfl, rfl⟩ := Prod.mk.inj (Except.ok.inj hnumbers)
  refine ⟨fun hlarge => if_neg ?_, fun hr hs => ?_⟩
  · rintro ⟨hr, hs⟩
    obtain hlarge | hlarge := hlarge
    · exact absurd hr (Nat.not_lt.mpr hlarge)
    · exact absurd hs (Nat.not_lt.mpr hlarge)
  · exact ⟨keys.signedAs S cert version r s, if_pos ⟨hr, hs⟩, rfl, rfl,
      keys.shows_signedAs hr hs cert version⟩

theorem PublicKeys.sign_verifies_short :
    let keys : PublicKeys := {
      issued := 1000, expiry := 4600, comment := "m", point := CurvePoint.ofBytes [4]
      kyber := [7] }
    let answer (q : Question) (state : Unit) : q.Answer × Unit :=
      match q with
      | .sign _ _ => (.ok (.ok [0x30]), state)
      | .decodeSignature _ => (.ok (5, 2 ^ 255 + 1), state)
      | _ => (.error "", state)
    let key : VerifyingKey := ⟨[9]⟩
    ∃ signed, ((keys.sign Suite.standard [0x30] 3).run.run answer ()).1 = .ok signed ∧
      Check.Passes (verifySignature key signed.payload signed.signature)
        [⟨.encodeSignature 5 (2 ^ 255 + 1), .ok [0x30]⟩,
          ⟨.verify .sha256 key (Wire.write keys) [0x30], .ok (.ok true)⟩] () ∧
      signed.publicKeys = .ok keys := by
  intro keys answer key
  obtain ⟨-, -, hsigned⟩ := PublicKeys.sign_verifies answer () Suite.standard keys [0x30] 3
  obtain ⟨-, -, hdecoded⟩ := hsigned [0x30] rfl
  obtain ⟨signed, hresult, -, -, hshows⟩ :=
    (hdecoded 5 (2 ^ 255 + 1) rfl).2 (by decide) (by decide)
  exact ⟨signed, hresult, (hshows.checked key _ _).mpr (.accepted [0x30]),
    hshows.returned (by decide +kernel)⟩

end SealedTunnel
