import SealedTunnel.Proofs.Trust.Status

/-!
# The conditions of trust

Signed keys are trusted if eight conditions hold. They are checked in order, and the first one that
does not hold decides the error.

* `Evidence` — what the certificates, the revocation status and the payload turn out to hold.
* `Condition`, `Condition.all` — the conditions, in order.
* `Condition.Holds`, `Condition.exchanges` — what is checked without the authority, and what the
  authority has to answer.
* `Condition.Breaks` — what is known of the first condition that does not hold.
* `TrustStore.verify_eq` — the checks, one for each condition; each has a lemma for either outcome.
* `TrustStore.verify_decides` — the keys are trusted exactly if all conditions hold, and nothing is
  asked that belongs to a condition after the first one that does not.
-/

namespace SealedTunnel

open Check (Passes Fails passes_bind fails_bind passes_guard fails_guard passes_pure not_fails_pure
  fails_throw passes_lift fails_lift)

/-! ## Conditions -/

/-- What is found in the data that signed keys are judged by. -/
structure Evidence where
  /-- the certificate -/
  leaf : Certificate
  /-- the certificate whose key has to have signed the revocation status -/
  issuer : Certificate
  /-- the certificates from there to a root -/
  chain : List Certificate
  /-- the revocation status -/
  status : Ocsp.Signed
  /-- the key in `issuer` -/
  issuerKey : VerifyingKey
  /-- the key in `leaf` -/
  key : VerifyingKey
  /-- the signature over the payload, encoded -/
  signature : Bytes
  /-- the public keys in the payload -/
  keys : PublicKeys

deriving instance Inhabited for Der.Class, Der.Element, Digest, Ocsp.Signed, Certificate,
  VerifyingKey, CurvePoint, PublicKeys, Evidence

/-- What signed keys are trusted for. -/
inductive Condition where
  /-- the certificate is the one that was named -/
  | binding
  /-- all certificates can be read -/
  | certificates
  /-- a path leads from the certificate to an anchor -/
  | leafPath
  /-- a path leads from the issuer to an anchor -/
  | issuerPath
  /-- the revocation status is a fresh and signed good answer -/
  | revocation
  /-- the certificate states the required profession -/
  | profession
  /-- the key in the certificate has signed the payload -/
  | signature
  /-- the payload can be read -/
  | payload
  deriving DecidableEq, Repr

namespace Condition

/-- The conditions, in the order in which they are checked. -/
def all : List Condition :=
  [binding, certificates, leafPath, issuerPath, revocation, profession, signature, payload]

/-- The errors that say that a condition does not hold. -/
def Raises : Condition → ChannelError → Prop
  | binding, e | certificates, e | leafPath, e | issuerPath, e =>
    ∃ reason, e = .untrustedChain reason
  | revocation, e => ∃ reason, e = .revocationCheckFailed reason
  | profession, e => ∃ reason, e = .roleMismatch reason
  | signature, e => ∃ reason, e = .signatureInvalid reason
  | payload, e => ∃ reason, e = .malformedMessage 2 reason

end Condition

/-- The questions about encodings, if they are those of certificates. -/
def certificateExchanges (encodings : List Bytes) (certificates : List Certificate) :
    List Exchange :=
  List.zipWith (fun der c => ⟨.certificate der, .ok c⟩) encodings certificates

/-- The questions about the signature over the payload, if `key` is the key in the certificate and
has signed. -/
def SignedKeys.exchanges (signed : SignedKeys) (leaf : Certificate) (key : VerifyingKey)
    (encoded : Bytes) : List Exchange :=
  [⟨.publicKey leaf, .ok key⟩,
    ⟨.encodeSignature (Bytes.toNat (signed.signature.take 32))
      (Bytes.toNat (signed.signature.drop 32)), .ok encoded⟩,
    ⟨.verify .sha256 key signed.payload encoded, .ok (.ok true)⟩]

namespace Condition

section

variable {ρ : Type} (S : Suite ρ) (store : TrustStore) (required : Der.Oid) (signed : SignedKeys)
  (data : CertData) (now : Int)

/-- What is asked for a condition, with the answers that it takes. -/
def exchanges (E : Evidence) : Condition → List Exchange
  | binding | profession | payload => []
  | certificates => certificateExchanges (data.cert :: data.ca :: data.chain)
      (E.leaf :: E.issuer :: E.chain)
  | leafPath => [⟨.path E.leaf (E.issuer :: E.chain) store.anchors, .ok .valid⟩]
  | issuerPath => [⟨.path E.issuer E.chain store.anchors, .ok .valid⟩]
  | revocation => E.status.exchanges E.issuer E.issuerKey
  | signature => signed.exchanges E.leaf E.key E.signature

/-- What is checked for a condition without asking. -/
def Holds (E : Evidence) : Condition → Prop
  | binding => S.hash data.cert = signed.certHash
  | certificates => E.chain.length = data.chain.length
  | leafPath | issuerPath => True
  | revocation => Ocsp.Signed.read signed.ocsp = .ok E.status ∧
      Ocsp.checkData E.status.data (S.hash data.cert) now store.maxAge = .ok ()
  | profession => checkAdmission data.cert required = .ok ()
  | signature => signed.signature.length = 64
  | payload => signed.publicKeys = .ok E.keys

/-- A condition does not hold, after `d` was asked and answered for it. -/
structure Breaks (c : Condition) (E : Evidence) (d : List Exchange) (e : ChannelError) : Prop where
  /-- whatever one takes as evidence, the condition is not met -/
  unmet : ∀ E', ¬ (Holds S store required signed data now E' c ∧
    d = exchanges store signed data E' c)
  /-- only what the condition needs was asked, and in that order -/
  asked : d.map Exchange.question <+: (exchanges store signed data E c).map Exchange.question
  /-- the error is the condition's own -/
  raised : c.Raises e

/-- The first of the conditions `cs` that does not hold, after those before it. -/
inductive Stops (E : Evidence) (e : ChannelError) : List Condition → List Exchange → Prop where
  /-- the first one does not hold -/
  | here {c : Condition} {cs : List Condition} {d : List Exchange}
    (breaks : Breaks S store required signed data now c E d e) : Stops E e (c :: cs) d
  /-- the first one holds -/
  | later {c : Condition} {cs : List Condition} {d : List Exchange}
    (holds : Holds S store required signed data now E c) (rest : Stops E e cs d) :
    Stops E e (c :: cs) (exchanges store signed data E c ++ d)

end

variable {ρ : Type} {S : Suite ρ} {store : TrustStore} {required : Der.Oid} {signed : SignedKeys}
  {data : CertData} {now : Int}

theorem Stops.exists_breaks {E : Evidence} {e : ChannelError} {cs : List Condition}
    {d : List Exchange} (h : Stops S store required signed data now E e cs d) :
    ∃ before c after more, cs = before ++ c :: after ∧
      (∀ c' ∈ before, Holds S store required signed data now E c') ∧
      d = before.flatMap (exchanges store signed data E) ++ more ∧
      Breaks S store required signed data now c E more e := by
  induction h with
  | @here c cs d breaks =>
    exact ⟨[], c, cs, d, rfl, fun _ hc => absurd hc List.not_mem_nil, rfl, breaks⟩
  | @later c cs d holds _ ih =>
    obtain ⟨before, c', after, more, rfl, hbefore, rfl, hbreaks⟩ := ih
    refine ⟨c :: before, c', after, more, rfl, ?_, ?_, hbreaks⟩
    · intro c'' hc
      obtain rfl | hc := List.mem_cons.mp hc
      · exact holds
      · exact hbefore c'' hc
    · rw [List.flatMap_cons, List.append_assoc]

end Condition

/-! ## Single checks -/

section Checks

variable {d : List Exchange} {e : ChannelError}

/-- What comes out badly does not come out well. -/
theorem Check.Fails.not_passes {α : Type} {c : Check α} {a : α} (h : Fails c d e) :
    ¬ Passes c d a := fun h' => nomatch Consult.Ends.unique h h'

/-! ### Certificates -/

/-- The dialogue about encodings, of which one is not that of a certificate. -/
inductive Unreadable : List Bytes → List Exchange → Prop where
  /-- the first one -/
  | here (der : Bytes) (rest : List Bytes) (reason : String) :
    Unreadable (der :: rest) [⟨.certificate der, .error reason⟩]
  /-- a later one -/
  | later {der : Bytes} {rest : List Bytes} {c : Certificate} {d : List Exchange}
    (h : Unreadable rest d) : Unreadable (der :: rest) (⟨.certificate der, .ok c⟩ :: d)

theorem Unreadable.asked {encodings : List Bytes} (h : Unreadable encodings d) :
    d.map Exchange.question <+: encodings.map Question.certificate := by
  induction h with
  | here der rest reason => exact ⟨_, rfl⟩
  | later h ih => exact List.cons_prefix_cons.mpr ⟨rfl, ih⟩

theorem Unreadable.ne {encodings : List Bytes} (h : Unreadable encodings d)
    (certificates : List Certificate) : d ≠ certificateExchanges encodings certificates := by
  induction h generalizing certificates with
  | here der rest reason =>
    cases certificates with
    | nil => exact fun heq => nomatch heq
    | cons c cs =>
      intro heq
      obtain ⟨-, h⟩ := Exchange.mk.inj (List.cons.inj heq).1
      exact nomatch eq_of_heq h
  | later h ih =>
    cases certificates with
    | nil => exact fun heq => nomatch heq
    | cons c cs =>
      intro heq
      exact ih cs (List.cons.inj heq).2

theorem map_question_certificateExchanges {encodings : List Bytes} {certificates : List Certificate}
    (h : certificates.length = encodings.length) :
    (certificateExchanges encodings certificates).map Exchange.question =
      encodings.map Question.certificate := by
  induction encodings generalizing certificates with
  | nil => rfl
  | cons der rest ih =>
    cases certificates with
    | nil => exact nomatch h
    | cons c cs => exact congrArg (Question.certificate der :: ·) (ih (Nat.succ.inj h))

theorem passes_parseCertificate {what : String} {der : Bytes} {c : Certificate} :
    Passes (parseCertificate what der) d c ↔ d = [⟨.certificate der, .ok c⟩] := by
  constructor
  · rintro ⟨reason | c', rest, rfl, h⟩
    · exact nomatch h.2
    · obtain ⟨rfl, h⟩ := h
      obtain rfl := Except.ok.inj h
      rfl
  · rintro rfl
    exact ⟨.ok c, [], rfl, rfl, rfl⟩

theorem fails_parseCertificate {what : String} {der : Bytes} (rest : List Bytes)
    (h : Fails (parseCertificate what der) d e) :
    Unreadable (der :: rest) d ∧ Condition.certificates.Raises e := by
  obtain ⟨reason | c, more, rfl, h⟩ := h
  · obtain ⟨rfl, h⟩ := h
    exact ⟨.here der rest reason, _, (Except.error.inj h).symm⟩
  · exact nomatch h.2

theorem passes_parseAll {what : String} {encodings : List Bytes} {cs : List Certificate} :
    Passes (encodings.mapM (parseCertificate what)) d cs ↔
      cs.length = encodings.length ∧ d = certificateExchanges encodings cs := by
  induction encodings generalizing d cs with
  | nil =>
    rw [List.mapM_nil, passes_pure]
    constructor
    · rintro ⟨rfl, rfl⟩
      exact ⟨rfl, rfl⟩
    · rintro ⟨hlen, rfl⟩
      exact ⟨rfl, (List.eq_nil_of_length_eq_zero hlen).symm⟩
  | cons der rest ih =>
    rw [List.mapM_cons, passes_bind]
    constructor
    · rintro ⟨c, d₁, d₂, rfl, hc, h⟩
      obtain ⟨cs', d₃, d₄, rfl, hcs, h⟩ := passes_bind.mp h
      obtain ⟨rfl, rfl⟩ := passes_pure.mp h
      obtain rfl := passes_parseCertificate.mp hc
      obtain ⟨hlen, rfl⟩ := ih.mp hcs
      refine ⟨congrArg Nat.succ hlen, ?_⟩
      rw [List.append_nil]
      rfl
    · rintro ⟨hlen, rfl⟩
      cases cs with
      | nil => exact nomatch hlen
      | cons c cs =>
        refine ⟨c, [_], _, rfl, passes_parseCertificate.mpr rfl, passes_bind.mpr ⟨cs, _, [], ?_,
          ih.mpr ⟨Nat.succ.inj hlen, rfl⟩, passes_pure.mpr ⟨rfl, rfl⟩⟩⟩
        exact (List.append_nil _).symm

theorem fails_parseAll {what : String} {encodings : List Bytes}
    (h : Fails (encodings.mapM (parseCertificate what)) d e) :
    Unreadable encodings d ∧ Condition.certificates.Raises e := by
  induction encodings generalizing d with
  | nil => exact absurd h not_fails_pure
  | cons der rest ih =>
    rw [List.mapM_cons, fails_bind] at h
    obtain hc | ⟨c, d₁, d₂, rfl, hc, h⟩ := h
    · exact fails_parseCertificate rest hc
    · obtain rfl := passes_parseCertificate.mp hc
      obtain hcs | ⟨_, _, _, _, _, h⟩ := fails_bind.mp h
      · obtain ⟨hunreadable, he⟩ := ih hcs
        exact ⟨.later hunreadable, he⟩
      · exact absurd h not_fails_pure

/-- The certificates in certificate data. -/
def CertData.parse (data : CertData) : Check (Certificate × Certificate × List Certificate) := do
  let leaf ← parseCertificate "parse certificate" data.cert
  let ca ← parseCertificate "parse issuing CA" data.ca
  let chain ← data.chain.mapM (parseCertificate "parse root chain")
  return (leaf, ca, chain)

theorem CertData.passes_parse {data : CertData} {leaf ca : Certificate} {chain : List Certificate} :
    Passes data.parse d (leaf, ca, chain) ↔ chain.length = data.chain.length ∧
      d = certificateExchanges (data.cert :: data.ca :: data.chain) (leaf :: ca :: chain) := by
  rw [parse, passes_bind]
  constructor
  · rintro ⟨leaf', d₁, d₂, rfl, hleaf, h⟩
    obtain ⟨ca', d₃, d₄, rfl, hca, h⟩ := passes_bind.mp h
    obtain ⟨chain', d₅, d₆, rfl, hchain, h⟩ := passes_bind.mp h
    obtain ⟨rfl, heq⟩ := passes_pure.mp h
    obtain ⟨rfl, rfl, rfl⟩ : leaf' = leaf ∧ ca' = ca ∧ chain' = chain := by simpa using heq
    obtain rfl := passes_parseCertificate.mp hleaf
    obtain rfl := passes_parseCertificate.mp hca
    obtain ⟨hlen, rfl⟩ := passes_parseAll.mp hchain
    refine ⟨hlen, ?_⟩
    rw [List.append_nil]
    rfl
  · rintro ⟨hlen, rfl⟩
    refine ⟨leaf, [_], _, rfl, passes_parseCertificate.mpr rfl, passes_bind.mpr ⟨ca, [_], _, rfl,
      passes_parseCertificate.mpr rfl, passes_bind.mpr ⟨chain, _, [], ?_,
      passes_parseAll.mpr ⟨hlen, rfl⟩, passes_pure.mpr ⟨rfl, rfl⟩⟩⟩⟩
    exact (List.append_nil _).symm

theorem CertData.fails_parse {data : CertData} (h : Fails data.parse d e) :
    Unreadable (data.cert :: data.ca :: data.chain) d ∧ Condition.certificates.Raises e := by
  rw [parse, fails_bind] at h
  obtain hleaf | ⟨leaf, d₁, d₂, rfl, hleaf, hrest⟩ := h
  · exact fails_parseCertificate _ hleaf
  obtain rfl := passes_parseCertificate.mp hleaf
  obtain hca | ⟨ca, d₃, d₄, rfl, hca, hlast⟩ := fails_bind.mp hrest
  · obtain ⟨hunreadable, he⟩ := fails_parseCertificate _ hca
    exact ⟨.later hunreadable, he⟩
  obtain rfl := passes_parseCertificate.mp hca
  obtain hchain | ⟨_, _, _, _, _, hdone⟩ := fails_bind.mp hlast
  · obtain ⟨hunreadable, he⟩ := fails_parseAll hchain
    exact ⟨.later (.later hunreadable), he⟩
  · exact absurd hdone not_fails_pure

/-! ### Paths -/

theorem TrustStore.passes_checkPath {store : TrustStore} {what : String} {c : Certificate}
    {chain : List Certificate} :
    Passes (store.checkPath what c chain) d () ↔
      d = [⟨.path c chain store.anchors, .ok .valid⟩] := by
  constructor
  · rintro ⟨reason | valid | reason, rest, rfl, h⟩
    · exact nomatch h.2
    · obtain ⟨rfl, -⟩ := h
      rfl
    · exact nomatch h.2
  · rintro rfl
    exact ⟨.ok .valid, [], rfl, rfl, rfl⟩

theorem TrustStore.fails_checkPath {store : TrustStore} {what : String} {c : Certificate}
    {chain : List Certificate} (h : Fails (store.checkPath what c chain) d e) :
    d.map Exchange.question = [.path c chain store.anchors] ∧
      ∃ reason, e = .untrustedChain reason := by
  obtain ⟨reason | valid | reason, rest, rfl, h⟩ := h
  · obtain ⟨rfl, h⟩ := h
    exact ⟨rfl, _, (Except.error.inj h).symm⟩
  · exact nomatch h.2
  · obtain ⟨rfl, h⟩ := h
    exact ⟨rfl, _, (Except.error.inj h).symm⟩

/-- A path that is not found is not one that the authority calls valid. -/
theorem TrustStore.ne_of_fails_checkPath {store : TrustStore} {what : String} {c : Certificate}
    {chain : List Certificate} (h : Fails (store.checkPath what c chain) d e) (c' : Certificate)
    (chain' : List Certificate) : d ≠ [⟨.path c' chain' store.anchors, .ok .valid⟩] := by
  rintro rfl
  obtain ⟨hasked, -⟩ := fails_checkPath h
  obtain ⟨rfl, rfl, -⟩ := Question.path.inj (List.cons.inj hasked).1
  exact h.not_passes (passes_checkPath.mpr rfl)

/-! ### Professions -/

/-- The certificate states the required profession. -/
def checkProfession (der : Bytes) (required : Der.Oid) : Check Unit :=
  match checkAdmission der required with
  | .error fault => throw (.roleMismatch fault.message)
  | .ok () => return ()

theorem passes_checkProfession {der : Bytes} {required : Der.Oid} :
    Passes (checkProfession der required) d () ↔ d = [] ∧ checkAdmission der required = .ok () := by
  rw [checkProfession]
  cases h : checkAdmission der required with
  | error fault => exact ⟨fun h => (nomatch h.2), fun h => (nomatch h.2)⟩
  | ok u => exact ⟨fun h => ⟨h.1, rfl⟩, fun h => ⟨h.1, rfl⟩⟩

theorem fails_checkProfession {der : Bytes} {required : Der.Oid}
    (h : Fails (checkProfession der required) d e) : d = [] ∧ Condition.profession.Raises e := by
  rw [checkProfession] at h
  cases hadmission : checkAdmission der required with
  | error fault =>
    rw [hadmission] at h
    obtain ⟨rfl, rfl⟩ := fails_throw.mp h
    exact ⟨rfl, _, rfl⟩
  | ok u =>
    rw [hadmission] at h
    exact absurd h not_fails_pure

/-! ### Signatures -/

/-- The key in the certificate has signed the payload. -/
def checkSignature (leaf : Certificate) (signed : SignedKeys) : Check Unit := do
  let key ← keyOf leaf
  verifySignature key signed.payload signed.signature

theorem passes_checkSignature {leaf : Certificate} {signed : SignedKeys} :
    Passes (checkSignature leaf signed) d () ↔ signed.signature.length = 64 ∧
      ∃ key encoded, d = signed.exchanges leaf key encoded := by
  rw [checkSignature, passes_bind]
  constructor
  · rintro ⟨key, d₁, d₂, rfl, ⟨reason | key', rest, rfl, hkey⟩, h⟩
    · exact nomatch hkey.2
    · obtain ⟨rfl, hkey⟩ := hkey
      obtain rfl := Except.ok.inj hkey
      rw [verifySignature, passes_guard] at h
      obtain ⟨hlen, reason | encoded, rest, rfl, h⟩ := h
      · exact nomatch h.2
      · obtain ⟨reason | (reason | valid), rest, rfl, h⟩ := h
        · exact nomatch h.2
        · exact nomatch h.2
        · cases valid with
          | false => exact nomatch h.2
          | true =>
            obtain ⟨rfl, -⟩ := h
            exact ⟨Decidable.not_not.mp hlen, key', encoded, rfl⟩
  · rintro ⟨hlen, key, encoded, rfl⟩
    refine ⟨key, [_], _, rfl, ⟨.ok key, [], rfl, rfl, rfl⟩, ?_⟩
    rw [verifySignature, passes_guard]
    exact ⟨Decidable.not_not.mpr hlen, .ok encoded, _, rfl, .ok (.ok true), [], rfl, rfl, rfl⟩

theorem fails_checkSignature {leaf : Certificate} {signed : SignedKeys}
    (h : Fails (checkSignature leaf signed) d e) :
    Condition.signature.Raises e ∧ ∃ key encoded,
      d.map Exchange.question <+: (signed.exchanges leaf key encoded).map Exchange.question := by
  rw [checkSignature, fails_bind] at h
  obtain ⟨reason | key, rest, rfl, hkey⟩ |
    ⟨key, d₁, d₂, rfl, ⟨reason | key', rest, rfl, hkey⟩, h⟩ := h
  · obtain ⟨rfl, hkey⟩ := hkey
    exact ⟨⟨_, (Except.error.inj hkey).symm⟩, ⟨[]⟩, [], _, rfl⟩
  · exact nomatch hkey.2
  · exact nomatch hkey.2
  · obtain ⟨rfl, hkey⟩ := hkey
    obtain rfl := Except.ok.inj hkey
    rw [verifySignature, fails_guard] at h
    obtain ⟨-, rfl, rfl⟩ | ⟨-, reason | encoded, rest, rfl, h⟩ := h
    · exact ⟨⟨_, rfl⟩, key', [], _, rfl⟩
    · obtain ⟨rfl, h⟩ := h
      exact ⟨⟨_, (Except.error.inj h).symm⟩, key', [], _, rfl⟩
    · obtain ⟨reason | (reason | valid), rest, rfl, h⟩ := h
      · obtain ⟨rfl, h⟩ := h
        exact ⟨⟨_, (Except.error.inj h).symm⟩, key', encoded, _, rfl⟩
      · obtain ⟨rfl, h⟩ := h
        exact ⟨⟨_, (Except.error.inj h).symm⟩, key', encoded, _, rfl⟩
      · cases valid with
        | false =>
          obtain ⟨rfl, h⟩ := h
          exact ⟨⟨_, (Except.error.inj h).symm⟩, key', encoded, _, rfl⟩
        | true => exact nomatch h.2

end Checks

/-! ## All checks -/

namespace TrustStore

variable {ρ : Type} {S : Suite ρ} {store : TrustStore} {required : Der.Oid} {signed : SignedKeys}
  {data : CertData} {now : Int} {d : List Exchange} {e : ChannelError} {keys : PublicKeys}

open Condition (Holds Breaks Stops)

/-- The certificate is the one that was named. -/
def checkBinding (S : Suite ρ) (signed : SignedKeys) (data : CertData) : Check Unit :=
  if S.hash data.cert ≠ signed.certHash then
    throw (.untrustedChain "certificate hash does not match CertData")
  else return ()

/-- One check for each condition, in order. -/
theorem verify_eq : store.verify S required signed data now = (do
    checkBinding S signed data
    let (leaf, ca, chain) ← data.parse
    store.checkPath "certificate" leaf (ca :: chain)
    store.checkPath "issuing CA" ca chain
    Ocsp.verify S signed.ocsp data.cert ca now store.maxAge
    checkProfession data.cert required
    checkSignature leaf signed
    signed.publicKeys) := by
  have hadmission : ∀ next : Check PublicKeys,
      (checkProfession data.cert required >>= fun _ => next) =
        match checkAdmission data.cert required with
        | .error fault => throw (.roleMismatch fault.message)
        | .ok () => next := by
    intro next
    rw [checkProfession]
    cases checkAdmission data.cert required <;> rfl
  simp only [verify, checkBinding, CertData.parse, checkSignature, hadmission, bind_assoc,
    pure_bind]
  split <;> rfl

/-! ### Conditions that do not hold -/

theorem passes_checkBinding :
    Passes (checkBinding S signed data) d () ↔ d = [] ∧ S.hash data.cert = signed.certHash := by
  rw [checkBinding]
  by_cases h : S.hash data.cert = signed.certHash
  · rw [if_neg (Decidable.not_not.mpr h)]
    exact ⟨fun hd => ⟨hd.1, h⟩, fun hd => ⟨hd.1, rfl⟩⟩
  · rw [if_pos h]
    exact ⟨fun hd => (nomatch hd.2), fun hd => absurd hd.2 h⟩

theorem breaks_binding {E : Evidence} (h : Fails (checkBinding S signed data) d e) :
    Breaks S store required signed data now .binding E d e := by
  rw [checkBinding] at h
  split at h
  · obtain ⟨rfl, rfl⟩ := fails_throw.mp h
    exact ⟨fun _ hmet => absurd hmet.1 ‹_›, List.nil_prefix, _, rfl⟩
  · exact absurd h not_fails_pure

theorem breaks_certificates {E : Evidence} (hlen : E.chain.length = data.chain.length)
    (h : Fails data.parse d e) : Breaks S store required signed data now .certificates E d e := by
  obtain ⟨hunreadable, he⟩ := CertData.fails_parse h
  refine ⟨fun E' hmet => hunreadable.ne _ hmet.2, ?_, he⟩
  have hall : (E.leaf :: E.issuer :: E.chain).length =
      (data.cert :: data.ca :: data.chain).length := congrArg (· + 2) hlen
  exact map_question_certificateExchanges hall ▸ hunreadable.asked

theorem breaks_leafPath {E : Evidence} {what : String}
    (h : Fails (store.checkPath what E.leaf (E.issuer :: E.chain)) d e) :
    Breaks S store required signed data now .leafPath E d e := by
  obtain ⟨hasked, he⟩ := fails_checkPath h
  exact ⟨fun E' hmet => ne_of_fails_checkPath h _ _ hmet.2, hasked ▸ List.prefix_refl _, he⟩

theorem breaks_issuerPath {E : Evidence} {what : String}
    (h : Fails (store.checkPath what E.issuer E.chain) d e) :
    Breaks S store required signed data now .issuerPath E d e := by
  obtain ⟨hasked, he⟩ := fails_checkPath h
  exact ⟨fun E' hmet => ne_of_fails_checkPath h _ _ hmet.2, hasked ▸ List.prefix_refl _, he⟩

theorem breaks_revocation {E : Evidence}
    (h : Fails (Ocsp.verify S signed.ocsp data.cert E.issuer now store.maxAge) d e) :
    ∃ status issuerKey, Breaks S store required signed data now .revocation
      { E with status, issuerKey } d e := by
  obtain ⟨he, hasked⟩ := Ocsp.fails_verify h
  -- other evidence that fits the dialogue would be about the same issuer
  have unmet : ∀ E', ¬ (Holds S store required signed data now E' .revocation ∧
      d = Condition.exchanges store signed data E' .revocation) := by
    rintro E' ⟨⟨hread, hdata⟩, rfl⟩
    obtain hnil | ⟨status, key, hasked⟩ := hasked
    · exact nomatch hnil
    · have hissuer : E'.issuer = E.issuer :=
        Question.publicKey.inj (List.cons_prefix_cons.mp hasked).1
      exact h.not_passes (Ocsp.passes_verify.mpr
        ⟨E'.status, E'.issuerKey, hread, hdata, congrArg (Ocsp.Signed.exchanges _ · _) hissuer⟩)
  obtain rfl | ⟨status, key, hasked⟩ := hasked
  · exact ⟨E.status, E.issuerKey, unmet, List.nil_prefix, he⟩
  · exact ⟨status, key, unmet, hasked, he⟩

theorem breaks_profession {E : Evidence} (h : Fails (checkProfession data.cert required) d e) :
    Breaks S store required signed data now .profession E d e := by
  obtain ⟨rfl, he⟩ := fails_checkProfession h
  refine ⟨fun E' hmet => ?_, List.nil_prefix, he⟩
  exact h.not_passes (passes_checkProfession.mpr ⟨rfl, hmet.1⟩)

theorem breaks_signature {E : Evidence} (h : Fails (checkSignature E.leaf signed) d e) :
    ∃ key signature, Breaks S store required signed data now .signature
      { E with key, signature } d e := by
  obtain ⟨he, key, encoded, hasked⟩ := fails_checkSignature h
  refine ⟨key, encoded, ?_, hasked, he⟩
  rintro E' ⟨hlen, rfl⟩
  have hleaf : E'.leaf = E.leaf := Question.publicKey.inj (List.cons_prefix_cons.mp hasked).1
  exact h.not_passes (passes_checkSignature.mpr
    ⟨hlen, E'.key, E'.signature, congrArg (signed.exchanges · _ _) hleaf⟩)

theorem breaks_payload {E : Evidence} (h : Fails (liftM signed.publicKeys) d e) :
    Breaks S store required signed data now .payload E d e := by
  obtain ⟨rfl, herror⟩ := fails_lift.mp h
  refine ⟨?_, List.nil_prefix, ?_⟩
  · rintro E' ⟨hkeys, -⟩
    exact nomatch herror.symm.trans hkeys
  · rw [SignedKeys.publicKeys] at herror
    split at herror
    · exact nomatch herror
    · exact ⟨_, (Except.error.inj herror).symm⟩

/-! ### All conditions -/

/-- All checks come out well if all conditions hold. -/
theorem passes_verify :
    Passes (store.verify S required signed data now) d keys ↔
      ∃ E : Evidence, E.keys = keys ∧ (∀ c, Holds S store required signed data now E c) ∧
        d = Condition.all.flatMap (Condition.exchanges store signed data E) := by
  rw [verify_eq, passes_bind]
  constructor
  · rintro ⟨_, _, _, rfl, bound, h₁⟩
    obtain ⟨⟨leaf, issuer, chain⟩, _, _, rfl, parsed, h₂⟩ := passes_bind.mp h₁
    obtain ⟨_, _, _, rfl, leafFound, h₃⟩ := passes_bind.mp h₂
    obtain ⟨_, _, _, rfl, issuerFound, h₄⟩ := passes_bind.mp h₃
    obtain ⟨_, _, _, rfl, good, h₅⟩ := passes_bind.mp h₄
    obtain ⟨_, _, _, rfl, admitted, h₆⟩ := passes_bind.mp h₅
    obtain ⟨_, _, _, rfl, verified, h₇⟩ := passes_bind.mp h₆
    obtain ⟨rfl, hbinding⟩ := passes_checkBinding.mp bound
    obtain ⟨hlen, rfl⟩ := CertData.passes_parse.mp parsed
    obtain rfl := passes_checkPath.mp leafFound
    obtain rfl := passes_checkPath.mp issuerFound
    obtain ⟨status, issuerKey, hread, hdata, rfl⟩ := Ocsp.passes_verify.mp good
    obtain ⟨rfl, hprofession⟩ := passes_checkProfession.mp admitted
    obtain ⟨hsize, key, signature, rfl⟩ := passes_checkSignature.mp verified
    obtain ⟨rfl, hkeys⟩ := passes_lift.mp h₇
    refine ⟨⟨leaf, issuer, chain, status, issuerKey, key, signature, keys⟩, rfl, ?_, rfl⟩
    intro c
    cases c with
    | binding => exact hbinding
    | certificates => exact hlen
    | leafPath => trivial
    | issuerPath => trivial
    | revocation => exact ⟨hread, hdata⟩
    | profession => exact hprofession
    | signature => exact hsize
    | payload => exact hkeys
  · rintro ⟨E, rfl, holds, rfl⟩
    obtain ⟨hread, hdata⟩ := holds .revocation
    exact ⟨(), [], _, rfl, passes_checkBinding.mpr ⟨rfl, holds .binding⟩,
      passes_bind.mpr ⟨(E.leaf, E.issuer, E.chain), _, _, rfl,
        CertData.passes_parse.mpr ⟨holds .certificates, rfl⟩,
      passes_bind.mpr ⟨(), _, _, rfl, passes_checkPath.mpr rfl,
      passes_bind.mpr ⟨(), _, _, rfl, passes_checkPath.mpr rfl,
      passes_bind.mpr ⟨(), _, _, rfl,
        Ocsp.passes_verify.mpr ⟨E.status, E.issuerKey, hread, hdata, rfl⟩,
      passes_bind.mpr ⟨(), [], _, rfl, passes_checkProfession.mpr ⟨rfl, holds .profession⟩,
      passes_bind.mpr ⟨(), _, [], rfl,
        passes_checkSignature.mpr ⟨holds .signature, E.key, E.signature, rfl⟩,
      passes_lift.mpr ⟨rfl, holds .payload⟩⟩⟩⟩⟩⟩⟩⟩

/-- A check comes out badly at the first condition that does not hold. -/
theorem stops_verify (h : Fails (store.verify S required signed data now) d e) :
    ∃ E, Stops S store required signed data now E e Condition.all d := by
  rw [verify_eq, fails_bind] at h
  obtain hbinding | ⟨_, _, _, rfl, bound, h₁⟩ := h
  · exact ⟨default, .here (breaks_binding hbinding)⟩
  obtain ⟨rfl, hbinding⟩ := passes_checkBinding.mp bound
  obtain hparse | ⟨⟨leaf, issuer, chain⟩, _, _, rfl, parsed, h₂⟩ := fails_bind.mp h₁
  · exact ⟨{ (default : Evidence) with chain := data.chain.map Certificate.mk },
      .later hbinding (.here (breaks_certificates (List.length_map _) hparse))⟩
  obtain ⟨hlen, rfl⟩ := CertData.passes_parse.mp parsed
  let E : Evidence := { (default : Evidence) with leaf, issuer, chain }
  obtain hleaf | ⟨_, _, _, rfl, leafFound, h₃⟩ := fails_bind.mp h₂
  · exact ⟨E, .later hbinding (.later hlen (.here (breaks_leafPath hleaf)))⟩
  obtain rfl := passes_checkPath.mp leafFound
  obtain hissuer | ⟨_, _, _, rfl, issuerFound, h₄⟩ := fails_bind.mp h₃
  · exact ⟨E, .later hbinding (.later hlen (.later trivial (.here (breaks_issuerPath hissuer))))⟩
  obtain rfl := passes_checkPath.mp issuerFound
  obtain hrevocation | ⟨_, _, _, rfl, good, h₅⟩ := fails_bind.mp h₄
  · obtain ⟨status, issuerKey, hbreaks⟩ := breaks_revocation (E := E) hrevocation
    exact ⟨{ E with status, issuerKey },
      .later hbinding (.later hlen (.later trivial (.later trivial (.here hbreaks))))⟩
  obtain ⟨status, issuerKey, hread, hdata, rfl⟩ := Ocsp.passes_verify.mp good
  let E' : Evidence := { E with status, issuerKey }
  obtain hprofession | ⟨_, _, _, rfl, admitted, h₆⟩ := fails_bind.mp h₅
  · exact ⟨E', .later hbinding (.later hlen (.later trivial (.later trivial
      (.later ⟨hread, hdata⟩ (.here (breaks_profession hprofession))))))⟩
  obtain ⟨rfl, hprofession⟩ := passes_checkProfession.mp admitted
  obtain hsignature | ⟨_, _, _, rfl, verified, h₇⟩ := fails_bind.mp h₆
  · obtain ⟨key, signature, hbreaks⟩ := breaks_signature (E := E') hsignature
    exact ⟨{ E' with key, signature }, .later hbinding (.later hlen (.later trivial (.later trivial
      (.later ⟨hread, hdata⟩ (.later hprofession (.here hbreaks))))))⟩
  obtain ⟨hsize, key, signature, rfl⟩ := passes_checkSignature.mp verified
  let E'' : Evidence := { E' with key, signature }
  exact ⟨E'', .later hbinding (.later hlen (.later trivial (.later trivial
    (.later ⟨hread, hdata⟩ (.later hprofession (.later hsize
      (.here (breaks_payload h₇))))))))⟩

end TrustStore

end SealedTunnel
