import SealedTunnel.Proofs.Trust.Conditions

/-!
# Who vouches for a certificate

The revocation status has to be signed with the key in the certificate that is published as the
issuer. That it has issued the certificate is not checked.

* `Leads` — a chain of issuers from a certificate to an anchor.
* `TrustStore.revocation_issuer` — whose key the revocation status is checked with, if the keys are
  trusted: a certificate that leads to an anchor, and the issuer unless there is another one.
* `TwoIssuers` — certificates of which one vouches for what another has issued;
  `TrustStore.stranger_vouches`.
-/

namespace SealedTunnel

/-! ## Chains of issuers -/

/-- Issuers in `chain` lead from a certificate to an anchor. -/
inductive Leads (issued : Certificate → Certificate → Prop) (chain anchors : List Certificate) :
    Certificate → Prop where
  /-- an anchor itself -/
  | anchor {c : Certificate} (h : c ∈ anchors) : Leads issued chain anchors c
  /-- a certificate whose issuer leads to an anchor -/
  | step {c issuer : Certificate} (member : issuer ∈ chain ++ anchors) (h : issued issuer c)
    (rest : Leads issued chain anchors issuer) : Leads issued chain anchors c

variable {issued : Certificate → Certificate → Prop} {chain anchors : List Certificate}
  {c first : Certificate}

/-- The issuer that the chain starts with is the first one that may be used, or another one. -/
theorem Leads.issuer (h : Leads issued (first :: chain) anchors c) :
    c ∈ anchors ∨ issued first c ∨
      ∃ other ∈ chain ++ anchors, issued other c ∧ Leads issued (first :: chain) anchors other := by
  cases h with
  | anchor h => exact .inl h
  | @step _ issuer member h rest =>
    obtain rfl | member := List.mem_cons.mp member
    · exact .inr (.inl h)
    · exact .inr (.inr ⟨issuer, member, h, rest⟩)

namespace TrustStore

/-- If the authority calls a path valid only when there is a chain of issuers, then the revocation
status of trusted keys is checked with the key in a certificate that leads to an anchor. It is the
issuer of the certificate, unless that is an anchor or another trusted certificate has issued it. -/
theorem revocation_issuer {ρ σ : Type} (issued : Certificate → Certificate → Prop)
    (answer : (q : Question) → σ → q.Answer × σ) (s : σ) (S : Suite ρ) (store : TrustStore)
    (signed : SignedKeys) (data : CertData) (now : Int) (keys : PublicKeys)
    (sound : ∀ c chain s, (answer (.path c chain store.anchors) s).1 = .ok .valid →
      Leads issued chain store.anchors c)
    (h : ((store.verify S TrustPolicy.responderOid signed data now).run.run answer s).1 =
      .ok keys) :
    ∃ E : Evidence, E.keys = keys ∧
      (store.verify S TrustPolicy.responderOid signed data now).run.dialogue answer s =
        Condition.all.flatMap (Condition.exchanges store signed data E) ∧
      Leads issued E.chain store.anchors E.issuer ∧
      (E.leaf ∈ store.anchors ∨ issued E.issuer E.leaf ∨
        ∃ other ∈ E.chain ++ store.anchors, issued other E.leaf ∧
          Leads issued (E.issuer :: E.chain) store.anchors other) := by
  have hends := Consult.ends_dialogue answer
    (store.verify S TrustPolicy.responderOid signed data now).run s
  rw [h] at hends
  obtain ⟨E, hkeys, -, hd⟩ := passes_verify.mp hends
  -- each path was called valid in the dialogue
  have found : ∀ condition ∈ Condition.all, ∀ c chain,
      ⟨.path c chain store.anchors, .ok .valid⟩ ∈
        Condition.exchanges store signed data E condition →
      Leads issued chain store.anchors c := by
    intro condition hcondition c chain hmem
    have hasked := List.mem_flatMap.mpr ⟨condition, hcondition, hmem⟩
    rw [← hd] at hasked
    obtain ⟨s', hanswer⟩ := Consult.answer_of_mem_dialogue hasked
    exact sound c chain s' hanswer
  have hleaf := found .leafPath (by decide) _ _ (List.mem_singleton.mpr rfl)
  have hissuer := found .issuerPath (by decide) _ _ (List.mem_singleton.mpr rfl)
  exact ⟨E, hkeys, hd, hissuer, hleaf.issuer⟩

end TrustStore

/-! ## Two issuers

A certificate whose revocation status another one vouches for than has issued it. -/

instance decidableEqExcept {ε α : Type} [DecidableEq ε] [DecidableEq α] : DecidableEq (Except ε α)
  | .ok a, .ok b => decidable_of_iff (a = b) ⟨congrArg Except.ok, Except.ok.inj⟩
  | .error e, .error f => decidable_of_iff (e = f) ⟨congrArg Except.error, Except.error.inj⟩
  | .ok _, .error _ => isFalse nofun
  | .error _, .ok _ => isFalse nofun

namespace TwoIssuers

/-! ### Encodings -/

/-- An element with a content of less than 2^16 bytes. -/
def element (tag : UInt8) (content : Bytes) : Bytes :=
  let n := content.length
  let size :=
    if n < 0x80 then [n] else if n < 0x100 then [0x81, n] else [0x82, n / 0x100, n % 0x100]
  tag :: size.map UInt8.ofNat ++ content

/-- Elements in a sequence. -/
def sequence (parts : List Bytes) : Bytes := element 0x30 parts.flatten

/-- An object identifier. -/
def identifier (o : Der.Oid) : Bytes := element 0x06 o.content

/-- A string of bytes. -/
def octets (content : Bytes) : Bytes := element 0x04 content

/-- A string of bits that are whole bytes. -/
def bits (content : Bytes) : Bytes := element 0x03 (0 :: content)

/-- Parts with a signature, which only the authority could judge. -/
def sealing (signed : Bytes) : Bytes :=
  sequence [signed, sequence [identifier Ocsp.ecdsaSha256], bits [0x53, 0x49, 0x47]]

/-- A name of one letter. -/
def name (letter : Char) : Bytes :=
  sequence [element 0x31
    (sequence [identifier ⟨[0x55, 0x04, 0x03]⟩, element 0x0c [letter.toNat.toUInt8]])]

/-- The times `2025-01-01` and `2035-01-01`. -/
def validity : Bytes :=
  sequence ([[0x32, 0x35], [0x33, 0x35]].map fun year =>
    element 0x17 (year ++ [0x30, 0x31, 0x30, 0x31, 0x30, 0x30, 0x30, 0x30, 0x30, 0x30, 0x5a]))

/-- A key on P-256. -/
def subjectKey (point : Bytes) : Bytes :=
  sequence [sequence [identifier ⟨[0x2a, 0x86, 0x48, 0xce, 0x3d, 0x02, 0x01]⟩,
    identifier ⟨[0x2a, 0x86, 0x48, 0xce, 0x3d, 0x03, 0x01, 0x07]⟩], bits (0x04 :: point)]

/-- A certificate. -/
def certificate (serial : UInt8) (issuer subject : Char) (extensions : List Bytes) : Certificate :=
  ⟨sealing <| sequence [element 0xa0 (element 0x02 [0x02]), element 0x02 [serial],
    sequence [identifier Ocsp.ecdsaSha256], name issuer, validity, name subject,
    subjectKey (List.replicate 64 serial), element 0xa3 (sequence extensions)]⟩

/-- The extension of those who may certify others. -/
def authorized : Bytes :=
  sequence [identifier ⟨[0x55, 0x1d, 0x13]⟩, octets (sequence [element 0x01 [0xff]])]

/-- The extension with the profession of a responder. -/
def admission : Bytes :=
  let info := sequence [sequence [element 0x0c [0x56, 0x41, 0x55]],
    sequence [identifier TrustPolicy.responderOid]]
  sequence [identifier Admission.extensionOid,
    octets (sequence [sequence [sequence [sequence [info]]]])]

/-- A good revocation status, of noon on 2025-01-01, for the certificate with a hash. -/
def status (hash : Bytes) : Bytes :=
  let time := element 0x18 [0x32, 0x30, 0x32, 0x35, 0x30, 0x31, 0x30, 0x31, 0x31, 0x32, 0x30, 0x30,
    0x30, 0x30, 0x5a]
  let certHash := sequence [identifier Ocsp.certHashOid,
    octets (sequence [sequence [], octets hash])]
  let answer := sequence [sequence [], element 0x80 [], time, element 0xa1 (sequence [certHash])]
  let data := sequence [element 0xa2 (octets (List.replicate 20 0x33)), time, sequence [answer]]
  sequence [element 0x0a [0x00],
    element 0xa0 (sequence [identifier Ocsp.basicOid, octets (sealing data)])]

/-! ### Certificates -/

/-- A root. -/
def root : Certificate := certificate 1 'R' 'R' [authorized]

/-- One that the root has certified. -/
def issuer : Certificate := certificate 2 'R' 'A' [authorized]

/-- Another one that the root has certified. -/
def stranger : Certificate := certificate 3 'R' 'B' [authorized]

/-- A responder that `issuer` has certified. -/
def leaf : Certificate := certificate 4 'A' 'L' [admission]

/-- The hash of `leaf`. -/
def leafHash : Bytes :=
  [0x64, 0x66, 0x76, 0x94, 0xe8, 0xf3, 0xe6, 0x5c, 0xf1, 0x9f, 0x0b, 0xb6, 0x5f, 0x1c, 0xea,
    0x77, 0x44, 0x38, 0xe5, 0xc7, 0x3d, 0x52, 0x25, 0x31, 0x65, 0x7c, 0x11, 0x43, 0xcd, 0xe1,
    0x27, 0x96]

/-- Who has issued which certificate. -/
def Issued (c c' : Certificate) : Prop :=
  (c, c') ∈ [(root, root), (root, issuer), (root, stranger), (issuer, leaf)]

instance : DecidableRel Issued := fun _ _ => inferInstanceAs (Decidable (_ ∈ _))

/-- A store with the root. -/
def store : TrustStore := { anchors := [root], maxAge := Span.ofSeconds 86400 }

/-- The public keys of the responder. -/
def keys : PublicKeys where
  issued := 1
  expiry := 0x10000000000
  comment := "c"
  point := { curve := "P-256", x := List.replicate 32 7, y := List.replicate 32 7 }
  kyber := [1, 2, 3]

/-- The certificates that the responder publishes, with `stranger` in its issuer's place. -/
def data : CertData := { cert := leaf.der, ca := stranger.der, chain := [issuer.der] }

/-- The same keys, signed. -/
def signed : SignedKeys where
  payload := Wire.write keys
  signature := List.replicate 64 0x11
  certHash := leafHash
  version := 7
  ocsp := status leafHash

/-- The start of 2025-01-02. -/
def now : Int := 1735776000

/-- An authority that knows of these certificates, and takes every signature for right. -/
def authority : (q : Question) → Unit → q.Answer × Unit
  | .certificate der, _ => (.ok ⟨der⟩, ())
  | .publicKey c, _ => (.ok ⟨c.der⟩, ())
  | .path c chain _, _ =>
    (.ok (if c = stranger ∨ c = leaf ∧ issuer ∈ chain then .valid else .invalid "no path"), ())
  | .encodeSignature r s, _ => (.ok (Bytes.ofNat 32 r ++ Bytes.ofNat 32 s), ())
  | .verify .., _ => (.ok (.ok true), ())
  | .sign .., _ | .decodeSignature _, _ | .certificates _, _ | .file _, _ => (.error "", ())

theorem sound (c : Certificate) (chain : List Certificate) (s : Unit)
    (h : (authority (.path c chain store.anchors) s).1 = .ok .valid) :
    Leads Issued chain store.anchors c := by
  have root_anchor : root ∈ store.anchors := List.mem_singleton.mpr rfl
  have root_member : root ∈ chain ++ store.anchors := List.mem_append_right chain root_anchor
  by_cases hc : c = stranger ∨ c = leaf ∧ issuer ∈ chain
  · obtain rfl | ⟨rfl, hissuer⟩ := hc
    · exact .step root_member (by decide +kernel) (.anchor root_anchor)
    · exact .step (List.mem_append_left _ hissuer) (by decide +kernel)
        (.step root_member (by decide +kernel) (.anchor root_anchor))
  · have hinvalid : (authority (.path c chain store.anchors) s).1 = .ok (.invalid "no path") :=
      congrArg Except.ok (if_neg hc)
    exact nomatch hinvalid.symm.trans h

theorem verify_ok : ((store.verify Suite.standard TrustPolicy.responderOid signed data now).run.run
    authority ()).1 = .ok keys := by decide +kernel

end TwoIssuers

namespace TrustStore

open TwoIssuers

theorem revocation_issuer_sample :
    (∀ c chain s, (authority (.path c chain store.anchors) s).1 = .ok .valid →
      Leads Issued chain store.anchors c) ∧
    ((store.verify Suite.standard TrustPolicy.responderOid signed data now).run.run
      authority ()).1 = .ok keys ∧
    ∃ E : Evidence, E.keys = keys ∧
      (store.verify Suite.standard TrustPolicy.responderOid signed data now).run.dialogue
          authority () =
        Condition.all.flatMap (Condition.exchanges store signed data E) ∧
      Leads Issued E.chain store.anchors E.issuer ∧
      (E.leaf ∈ store.anchors ∨ Issued E.issuer E.leaf ∨
        ∃ other ∈ E.chain ++ store.anchors, Issued other E.leaf ∧
          Leads Issued (E.issuer :: E.chain) store.anchors other) :=
  ⟨sound, verify_ok, revocation_issuer Issued authority () Suite.standard store signed data now keys
    sound verify_ok⟩

/-- The keys are trusted although the revocation status is checked with the key of a certificate
that has not issued the responder's. -/
theorem stranger_vouches :
    (∀ c chain s, (authority (.path c chain store.anchors) s).1 = .ok .valid →
      Leads Issued chain store.anchors c) ∧
    ((store.verify Suite.standard TrustPolicy.responderOid signed data now).run.run
      authority ()).1 = .ok keys ∧
    ∃ E : Evidence,
      (store.verify Suite.standard TrustPolicy.responderOid signed data now).run.dialogue
          authority () =
        Condition.all.flatMap (Condition.exchanges store signed data E) ∧
      E.leaf = leaf ∧ E.issuer = stranger ∧ ¬ Issued E.issuer E.leaf ∧ Issued issuer E.leaf := by
  refine ⟨sound, verify_ok, ?_⟩
  have hends := Consult.ends_dialogue authority
    (store.verify Suite.standard TrustPolicy.responderOid signed data now).run ()
  rw [verify_ok] at hends
  obtain ⟨E, -, -, hd⟩ := passes_verify.mp hends
  -- the authority takes an encoding for a certificate as it is
  have parsed : ∀ der c, ⟨.certificate der, .ok c⟩ ∈
      Condition.exchanges store signed data E .certificates → c = ⟨der⟩ := by
    intro der c hmem
    have hasked := List.mem_flatMap.mpr ⟨.certificates, (by decide : _ ∈ Condition.all), hmem⟩
    rw [← hd] at hasked
    obtain ⟨s, hanswer⟩ := Consult.answer_of_mem_dialogue hasked
    exact (Except.ok.inj hanswer).symm
  have hleaf : E.leaf = leaf := parsed _ _ List.mem_cons_self
  have hissuer : E.issuer = stranger := parsed _ _ (List.mem_cons_of_mem _ List.mem_cons_self)
  refine ⟨E, hd, hleaf, hissuer, ?_, ?_⟩
  · rw [hleaf, hissuer]
    decide +kernel
  · rw [hleaf]
    decide +kernel

end TrustStore

end SealedTunnel
