import Mathlib.Data.List.TakeWhile
import SealedTunnel.Proofs.Der.Elements
import SealedTunnel.Proofs.Trust.Issuer

/-!
# What a good answer looks like

All the parts that the check of a revocation status looks at, and where they have to be.

* `Ocsp.Wrapping` — a response around signed data; `Ocsp.read_eq_ok`.
* `Ocsp.Naming` — extensions that name a certificate by its hash; `Ocsp.certHashValue_eq_ok`.
* `Ocsp.GoodAnswer` — signed data that is fresh, and good news for the certificate with a hash;
  `Ocsp.checkData_eq_ok`.
* `Ocsp.verify_eq_ok` — a response passes exactly if it is signed data of this kind, and the issuer
  has signed the bytes that it was read from.

An identifier is told by its content alone, so that an element of another type may stand in its
place.
-/

namespace SealedTunnel

namespace Ocsp

open Der
open Der.Element (Fills Holds)

/-! ## Parts -/

section Parts

variable {what : String} {b : Bytes} {e : Element} {items : List Element}

theorem orMalformed_eq_ok {α : Type} {x : Option α} {a : α} :
    orMalformed what x = .ok a ↔ x = some a := by
  cases x with
  | none => simp [orMalformed, malformed, fail]
  | some b => simp [orMalformed]

theorem children_eq_ok : children what b = .ok items ↔ Holds b items := by
  rw [children, orMalformed_eq_ok, Element.list_eq_some]

theorem single_eq_ok : single what b = .ok e ↔ Fills e b := by
  simp only [single]
  constructor
  · intro h
    obtain ⟨⟨e', rest, hrest⟩, hread, h⟩ := bind_eq_ok.mp h
    obtain ⟨hnil, h⟩ := refuse_eq_ok.mp h
    obtain rfl := Except.ok.inj h
    obtain rfl : rest = [] := Decidable.not_not.mp hnil
    have hsome := outcome_eq_some.mpr ⟨hrest, orMalformed_eq_ok.mp hread⟩
    obtain ⟨hsound, hb⟩ := Element.read_eq_some.mp hsome
    exact ⟨hsound, by simpa using hb⟩
  · rintro ⟨hsound, rfl⟩
    have hall : e.raw = e.raw ++ [] := (List.append_nil e.raw).symm
    obtain ⟨hrest, hread⟩ := outcome_eq_some.mp (Element.read_eq_some.mpr ⟨hsound, hall⟩)
    exact bind_eq_ok.mpr ⟨_, orMalformed_eq_ok.mpr hread, refuse_eq_ok.mpr ⟨by simp, rfl⟩⟩

/-- A sequence of the standard. -/
def IsSequence (e : Element) : Prop := e.tagClass = .universal ∧ e.tag = Tag.sequence

theorem sequence_eq_ok : sequence what b = .ok items ↔
    ∃ e, Fills e b ∧ IsSequence e ∧ Holds e.content items := by
  simp only [sequence]
  constructor
  · intro h
    obtain ⟨e, he, h⟩ := bind_eq_ok.mp h
    obtain ⟨htag, h⟩ := refuse_eq_ok.mp h
    exact ⟨e, single_eq_ok.mp he, by simpa [IsSequence] using htag, children_eq_ok.mp h⟩
  · rintro ⟨e, he, htag, hitems⟩
    refine bind_eq_ok.mpr ⟨e, single_eq_ok.mpr he, refuse_eq_ok.mpr ⟨?_, children_eq_ok.mpr hitems⟩⟩
    simpa [IsSequence] using htag

end Parts

/-! ## Signed data -/

/-- A response around signed data. -/
structure Wrapping (response : Bytes) where
  /-- the response -/
  outer : Element
  /-- its status -/
  status : Element
  /-- around the response proper -/
  wrapper : Element
  /-- what follows -/
  extra : List Element
  /-- the response proper -/
  typed : Element
  /-- its type -/
  kind : Element
  /-- around signed data -/
  octets : Element
  /-- signed data and its signature -/
  basic : Element
  /-- the data -/
  data : Element
  /-- the algorithm -/
  algorithm : Element
  /-- the signature -/
  bits : Element
  /-- certificates, if there are any -/
  certificates : List Element
  /-- what identifies the algorithm -/
  identifier : Element
  /-- and its parameters -/
  parameters : List Element
  /-- the hash in the signature -/
  digest : Digest
  /-- the signature, without the number of unused bits -/
  signature : Bytes
  /-- the response is a sequence, and nothing else -/
  outer_fills : Fills outer response
  outer_sequence : IsSequence outer
  outer_holds : Holds outer.content (status :: wrapper :: extra)
  /-- the status is a named number -/
  status_tag : status.tag = Tag.enumerated
  /-- which stands for success -/
  status_success : status.content = [0]
  /-- the response proper is wrapped in a tag of its own -/
  wrapper_context : wrapper.isContext 0 = true
  /-- nothing else is -/
  typed_fills : Fills typed wrapper.content
  /-- it is a sequence -/
  typed_sequence : IsSequence typed
  /-- of two elements -/
  typed_holds : Holds typed.content [kind, octets]
  /-- the type is the one that is understood -/
  kind_basic : Oid.ofElement kind = basicOid
  /-- the rest is a string of bytes -/
  octets_tag : octets.tag = Tag.octetString
  /-- around one element -/
  basic_fills : Fills basic octets.content
  /-- which is a sequence -/
  basic_sequence : IsSequence basic
  /-- of at least three elements -/
  basic_holds : Holds basic.content (data :: algorithm :: bits :: certificates)
  /-- the algorithm comes first in its element -/
  algorithm_holds : Holds algorithm.content (identifier :: parameters)
  /-- and is supported -/
  identifier_digest : digestOf (Oid.ofElement identifier) = .ok digest
  /-- the signature is a string of bits -/
  bits_tag : bits.tag = Tag.bitString
  /-- of which all are used -/
  bits_content : bits.content = 0 :: signature

/-- The signed part of the response. -/
def Wrapping.signed {response : Bytes} (w : Wrapping response) : Signed where
  data := w.data
  digest := w.digest
  signature := w.signature

variable {response content : Bytes}

theorem responseContent_eq_ok : responseContent response = .ok content ↔
    ∃ outer status wrapper extra, Fills outer response ∧ IsSequence outer ∧
      Holds outer.content (status :: wrapper :: extra) ∧ status.tag = Tag.enumerated ∧
      status.content = [0] ∧ wrapper.isContext 0 = true ∧ wrapper.content = content := by
  simp only [responseContent]
  constructor
  · intro h
    obtain ⟨items, hitems, h⟩ := bind_eq_ok.mp h
    obtain ⟨outer, hfills, hsequence, hholds⟩ := sequence_eq_ok.mp hitems
    rcases items with _ | ⟨status, more⟩
    · exact nomatch h
    · obtain ⟨_, hstatus, h'⟩ := bind_eq_ok.mp h
      obtain rfl := Option.some.inj (orMalformed_eq_ok.mp hstatus)
      obtain ⟨htag, h'⟩ := refuse_eq_ok.mp h'
      obtain ⟨hsuccess, h'⟩ := refuse_eq_ok.mp h'
      rcases more with _ | ⟨wrapper, extra⟩
      · exact nomatch h'
      · dsimp only [List.getElem?_cons_succ, List.getElem?_cons_zero] at h'
        split at h'
        · rename_i hcontext
          exact ⟨outer, status, wrapper, extra, hfills, hsequence, hholds,
            Decidable.not_not.mp htag, Decidable.not_not.mp hsuccess, hcontext, Except.ok.inj h'⟩
        · exact nomatch h'
  · rintro ⟨outer, status, wrapper, extra, hfills, hsequence, hholds, htag, hsuccess, hcontext, rfl⟩
    have hitems : sequence "response" response = .ok (status :: wrapper :: extra) :=
      sequence_eq_ok.mpr ⟨outer, hfills, hsequence, hholds⟩
    refine bind_eq_ok.mpr ⟨_, hitems, bind_eq_ok.mpr ⟨status, rfl, ?_⟩⟩
    refine refuse_eq_ok.mpr ⟨not_not_intro htag, refuse_eq_ok.mpr ⟨not_not_intro hsuccess, ?_⟩⟩
    simp [hcontext, pure, Except.pure]

theorem basicContent_eq_ok {basic : Bytes} : basicContent content = .ok basic ↔
    ∃ typed kind octets, Fills typed content ∧ IsSequence typed ∧
      Holds typed.content [kind, octets] ∧ Oid.ofElement kind = basicOid ∧
      octets.tag = Tag.octetString ∧ octets.content = basic := by
  simp only [basicContent]
  constructor
  · intro h
    obtain ⟨items, hitems, h⟩ := bind_eq_ok.mp h
    obtain ⟨typed, hfills, hsequence, hholds⟩ := sequence_eq_ok.mp hitems
    split at h
    · rename_i kind octets
      obtain ⟨hkind, h⟩ := refuse_eq_ok.mp h
      obtain ⟨htag, h⟩ := refuse_eq_ok.mp h
      exact ⟨typed, kind, octets, hfills, hsequence, hholds, Decidable.not_not.mp hkind,
        Decidable.not_not.mp htag, Except.ok.inj h⟩
    · exact nomatch h
  · rintro ⟨typed, kind, octets, hfills, hsequence, hholds, hkind, htag, rfl⟩
    have hitems : sequence "responseBytes" content = .ok [kind, octets] :=
      sequence_eq_ok.mpr ⟨typed, hfills, hsequence, hholds⟩
    refine bind_eq_ok.mpr ⟨_, hitems, refuse_eq_ok.mpr ⟨not_not_intro hkind, ?_⟩⟩
    exact refuse_eq_ok.mpr ⟨not_not_intro htag, rfl⟩

/-- Signed data is read from a response exactly if the response is wrapped around it. -/
theorem read_eq_ok {s : Signed} :
    Signed.read response = .ok s ↔ ∃ w : Wrapping response, s = w.signed := by
  simp only [Signed.read]
  constructor
  · intro h
    obtain ⟨content, hcontent, h₁⟩ := bind_eq_ok.mp h
    obtain ⟨outer, status, wrapper, extra, outer_fills, outer_sequence, outer_holds, status_tag,
      status_success, wrapper_context, rfl⟩ := responseContent_eq_ok.mp hcontent
    obtain ⟨inner, hinner, h₂⟩ := bind_eq_ok.mp h₁
    obtain ⟨typed, kind, octets, typed_fills, typed_sequence, typed_holds, kind_basic, octets_tag,
      rfl⟩ := basicContent_eq_ok.mp hinner
    obtain ⟨items, hitems, h₃⟩ := bind_eq_ok.mp h₂
    obtain ⟨basic, basic_fills, basic_sequence, basic_holds⟩ := sequence_eq_ok.mp hitems
    split at h₃
    · rename_i data algorithm bits certificates
      obtain ⟨parts, hparts, h₄⟩ := bind_eq_ok.mp h₃
      obtain ⟨identifier, hidentifier, h₅⟩ := bind_eq_ok.mp h₄
      obtain ⟨parameters, rfl⟩ := List.head?_eq_some_iff.mp (orMalformed_eq_ok.mp hidentifier)
      obtain ⟨hbits, h₆⟩ := refuse_eq_ok.mp h₅
      split at h₆
      · rename_i signature bits_content
        obtain ⟨digest, identifier_digest, h₇⟩ := bind_eq_ok.mp h₆
        exact ⟨{
          outer, status, wrapper, extra, typed, kind, octets, basic, data, algorithm, bits
          certificates, identifier, parameters, digest, signature, outer_fills, outer_sequence
          outer_holds, status_tag, status_success, wrapper_context, typed_fills, typed_sequence
          typed_holds, kind_basic, octets_tag, basic_fills, basic_sequence, basic_holds
          algorithm_holds := children_eq_ok.mp hparts, identifier_digest
          bits_tag := Decidable.not_not.mp hbits, bits_content }, (Except.ok.inj h₇).symm⟩
      · exact nomatch h₆
    · exact nomatch h₃
  · rintro ⟨w, rfl⟩
    have hcontent : responseContent response = .ok w.wrapper.content :=
      responseContent_eq_ok.mpr ⟨_, _, _, _, w.outer_fills, w.outer_sequence, w.outer_holds,
        w.status_tag, w.status_success, w.wrapper_context, rfl⟩
    have hinner : basicContent w.wrapper.content = .ok w.octets.content :=
      basicContent_eq_ok.mpr ⟨_, _, _, w.typed_fills, w.typed_sequence, w.typed_holds,
        w.kind_basic, w.octets_tag, rfl⟩
    have hitems : sequence "BasicOCSPResponse" w.octets.content =
        .ok (w.data :: w.algorithm :: w.bits :: w.certificates) :=
      sequence_eq_ok.mpr ⟨_, w.basic_fills, w.basic_sequence, w.basic_holds⟩
    have hparts : children "signatureAlgorithm" w.algorithm.content =
        .ok (w.identifier :: w.parameters) := children_eq_ok.mpr w.algorithm_holds
    refine bind_eq_ok.mpr ⟨_, hcontent, bind_eq_ok.mpr ⟨_, hinner, bind_eq_ok.mpr ⟨_, hitems, ?_⟩⟩⟩
    refine bind_eq_ok.mpr ⟨_, hparts, bind_eq_ok.mpr ⟨w.identifier, rfl, ?_⟩⟩
    refine refuse_eq_ok.mpr ⟨not_not_intro w.bits_tag, ?_⟩
    rw [w.bits_content]
    exact bind_eq_ok.mpr ⟨w.digest, w.identifier_digest, rfl⟩

/-! ## Freshness -/

theorem clamp_lt_clamp {n : Nat} {a : Int} (h : n < 2 ^ 63 - 1) :
    clamp n < clamp a ↔ (n : Int) < a := by
  simp only [clamp]
  omega

theorem maxSkew_lt_clamp {a : Int} : maxSkew < clamp a ↔ maxSkew < a := by
  simp only [clamp, maxSkew]
  omega

/-- Numbers with sign are kept to 64 bits, but no answer depends on it. -/
theorem checkFreshness_eq_ok {produced : Element} {now : Int} {maxAge : Span}
    (h : maxAge.seconds < 2 ^ 63 - 1) : checkFreshness produced now maxAge = .ok () ↔
      ∃ moment, timeOf? produced = some moment ∧ now - maxAge.seconds ≤ moment.seconds ∧
        moment.seconds ≤ now + maxSkew := by
  simp only [checkFreshness]
  constructor
  · intro hok
    obtain ⟨moment, hmoment, hok⟩ := bind_eq_ok.mp hok
    obtain ⟨hold, hok⟩ := refuse_eq_ok.mp hok
    obtain ⟨hnew, -⟩ := refuse_eq_ok.mp hok
    rw [clamp_lt_clamp h] at hold
    rw [maxSkew_lt_clamp] at hnew
    exact ⟨moment, orMalformed_eq_ok.mp hmoment, by omega, by omega⟩
  · rintro ⟨moment, hmoment, hold, hnew⟩
    refine bind_eq_ok.mpr ⟨moment, orMalformed_eq_ok.mpr hmoment, refuse_eq_ok.mpr ⟨?_, ?_⟩⟩
    · rw [clamp_lt_clamp h]
      omega
    · refine refuse_eq_ok.mpr ⟨?_, rfl⟩
      rw [maxSkew_lt_clamp]
      omega

/-! ## Naming a certificate -/

/-- An extension with a value: it names a certificate by its hash. -/
def Names (extension value : Element) : Prop :=
  ∃ id between, Oid.ofElement id = certHashOid ∧
    Holds extension.content (id :: between ++ [value])

/-- Extensions of which one names a certificate. -/
structure Naming (extensions : List Element) where
  /-- extensions that name no certificate -/
  before : List Element
  /-- the first one that does -/
  extension : Element
  /-- and others -/
  after : List Element
  /-- how it does -/
  value : Element
  /-- these are the extensions -/
  extensions_eq : extensions = before ++ extension :: after
  /-- all of them are made of elements -/
  sound : ∀ e ∈ extensions, ∃ items, Holds e.content items
  /-- the one names a certificate -/
  names : Names extension value
  /-- it is the first one -/
  first : ∀ e ∈ before, ∀ value, ¬ Names e value

/-- The value of an extension made of these elements, if it names a certificate. -/
def namedIn : List Element → Option Bytes
  | id :: rest =>
    if Oid.ofElement id = certHashOid then rest.getLast?.map Element.content else none
  | [] => none

/-- The elements that an extension is made of. -/
def partsOf (e : Element) : List Element := (Element.list e.content).getD []

theorem certHashValue_eq (extensions : List Element) : certHashValue extensions =
    (extensions.mapM fun e => children "extension" e.content) >>= fun parts =>
      match parts.findSome? namedIn with
      | some value => .ok value
      | none => fail "OCSP response lacks certHash extension" := rfl

theorem namedIn_eq_some {items : List Element} {b : Bytes} : namedIn items = some b ↔
    ∃ id between value, items = id :: between ++ [value] ∧ Oid.ofElement id = certHashOid ∧
      value.content = b := by
  cases items with
  | nil => simp [namedIn]
  | cons id rest =>
    simp only [namedIn]
    constructor
    · intro h
      split at h
      · rename_i hid
        obtain ⟨value, hvalue, rfl⟩ := Option.map_eq_some_iff.mp h
        obtain ⟨between, rfl⟩ := List.getLast?_eq_some_iff.mp hvalue
        exact ⟨id, between, value, rfl, hid, rfl⟩
      · exact nomatch h
    · rintro ⟨id, between, value, hitems, hid, rfl⟩
      obtain ⟨rfl, rfl⟩ := List.cons.inj hitems
      simp [hid]

theorem Holds.partsOf_eq {e : Element} {items : List Element} (h : Holds e.content items) :
    partsOf e = items := by
  simp [partsOf, Element.list_eq_some.mpr h]

theorem mapM_children {extensions : List Element} {parts : List (List Element)} :
    extensions.mapM (fun e => children "extension" e.content) = .ok parts ↔
      (∀ e ∈ extensions, ∃ items, Holds e.content items) ∧ parts = extensions.map partsOf := by
  induction extensions generalizing parts with
  | nil => simp [pure, Except.pure, eq_comm]
  | cons e extensions ih =>
    rw [List.mapM_cons]
    constructor
    · intro h
      obtain ⟨items, hitems, h⟩ := bind_eq_ok.mp h
      obtain ⟨more, hmore, h⟩ := bind_eq_ok.mp h
      obtain ⟨hsound, rfl⟩ := ih.mp hmore
      have hholds := children_eq_ok.mp hitems
      refine ⟨List.forall_mem_cons.mpr ⟨⟨items, hholds⟩, hsound⟩, ?_⟩
      rw [List.map_cons, Holds.partsOf_eq hholds]
      exact (Except.ok.inj h).symm
    · rintro ⟨hsound, rfl⟩
      obtain ⟨⟨items, hholds⟩, hmore⟩ := List.forall_mem_cons.mp hsound
      rw [List.map_cons, Holds.partsOf_eq hholds]
      exact bind_eq_ok.mpr ⟨items, children_eq_ok.mpr hholds,
        bind_eq_ok.mpr ⟨_, ih.mpr ⟨hmore, rfl⟩, rfl⟩⟩

theorem namedIn_partsOf {e : Element} {b : Bytes} (h : ∃ items, Holds e.content items) :
    namedIn (partsOf e) = some b ↔ ∃ value, Names e value ∧ value.content = b := by
  obtain ⟨items, hholds⟩ := h
  rw [Holds.partsOf_eq hholds, namedIn_eq_some]
  constructor
  · rintro ⟨id, between, value, rfl, hid, hb⟩
    exact ⟨value, ⟨id, between, hid, hholds⟩, hb⟩
  · rintro ⟨value, ⟨id, between, hid, hholds'⟩, hb⟩
    have hitems := (Holds.partsOf_eq hholds).symm.trans (Holds.partsOf_eq hholds')
    exact ⟨id, between, value, hitems, hid, hb⟩

theorem namedIn_partsOf_eq_none {e : Element} (h : ∃ items, Holds e.content items) :
    namedIn (partsOf e) = none ↔ ∀ value, ¬ Names e value := by
  rw [Option.eq_none_iff_forall_not_mem]
  constructor
  · intro hnone value hvalue
    exact hnone _ ((namedIn_partsOf h).mpr ⟨value, hvalue, rfl⟩)
  · intro hnone b hb
    obtain ⟨value, hvalue, -⟩ := (namedIn_partsOf h).mp hb
    exact hnone value hvalue

/-- The value of the first extension that names a certificate is found, and no other. -/
theorem certHashValue_eq_ok {extensions : List Element} {b : Bytes} :
    certHashValue extensions = .ok b ↔ ∃ n : Naming extensions, n.value.content = b := by
  rw [certHashValue_eq]
  constructor
  · intro h
    obtain ⟨parts, hparts, h⟩ := bind_eq_ok.mp h
    obtain ⟨sound, rfl⟩ := mapM_children.mp hparts
    rw [List.findSome?_map] at h
    cases hfound : extensions.findSome? (namedIn ∘ partsOf) with
    | none =>
      rw [hfound] at h
      exact nomatch h
    | some b' =>
      rw [hfound] at h
      obtain rfl := Except.ok.inj h
      obtain ⟨before, extension, after, hextensions, hnamed, hbefore⟩ :=
        List.findSome?_eq_some_iff.mp hfound
      subst hextensions
      obtain ⟨value, names, hvalue⟩ := (namedIn_partsOf (sound extension (by simp))).mp hnamed
      refine ⟨{ before, extension, after, value, extensions_eq := rfl, sound, names, first := ?_ },
        hvalue⟩
      intro e he
      exact (namedIn_partsOf_eq_none (sound e (by simp [he]))).mp (hbefore e he)
  · rintro ⟨n, rfl⟩
    refine bind_eq_ok.mpr ⟨_, mapM_children.mpr ⟨n.sound, rfl⟩, ?_⟩
    have hmem : ∀ e, e ∈ n.before ∨ e = n.extension → ∃ items, Holds e.content items := by
      intro e he
      refine n.sound e ?_
      rw [n.extensions_eq]
      obtain he | rfl := he
      · simp [he]
      · simp
    have hfound : (extensions.map partsOf).findSome? namedIn = some n.value.content := by
      rw [List.findSome?_map]
      refine List.findSome?_eq_some_iff.mpr
        ⟨n.before, n.extension, n.after, n.extensions_eq, ?_, ?_⟩
      · exact (namedIn_partsOf (hmem _ (.inr rfl))).mpr ⟨n.value, n.names, rfl⟩
      · intro e he
        exact (namedIn_partsOf_eq_none (hmem e (.inl he))).mpr (n.first e he)
    rw [hfound]

/-! ## Good news -/

/-- A status is good news for the certificate with a hash. -/
structure GoodStatus (status : Element) (hash : Bytes) where
  /-- what identifies the certificate -/
  id : Element
  /-- the verdict -/
  verdict : Element
  /-- when it was made -/
  update : Element
  /-- what comes before the extensions -/
  before : List Element
  /-- around the extensions -/
  wrapper : Element
  /-- what comes after them -/
  after : List Element
  /-- the list of extensions -/
  list : Element
  /-- the extensions -/
  extensions : List Element
  /-- the one with the hash -/
  naming : Naming extensions
  /-- its value -/
  certHash : Element
  /-- the algorithm of the hash -/
  algorithm : Element
  /-- the hash -/
  found : Element
  /-- what follows -/
  extra : List Element
  /-- these are the parts -/
  status_holds : Holds status.content (id :: verdict :: update :: before ++ wrapper :: after)
  /-- the verdict is good -/
  verdict_context : verdict.isContext 0 = true
  /-- there are no extensions before -/
  before_context : ∀ e ∈ before, e.isContext 1 = false
  /-- the extensions are wrapped in a tag of their own -/
  wrapper_context : wrapper.isContext 1 = true
  /-- nothing else is -/
  list_fills : Fills list wrapper.content
  /-- and there is nothing but extensions -/
  list_holds : Holds list.content extensions
  /-- the value is one element -/
  certHash_fills : Fills certHash naming.value.content
  /-- of at least two -/
  certHash_holds : Holds certHash.content (algorithm :: found :: extra)
  /-- the hash is a string of bytes -/
  found_tag : found.tag = Tag.octetString
  /-- and the one of the certificate -/
  found_content : found.content = hash

/-- Signed data is fresh, and good news for the certificate with a hash. -/
structure GoodAnswer (data : Element) (hash : Bytes) (now : Int) (maxAge : Span) where
  /-- the version, which may be left out -/
  versions : List Element
  /-- who answers -/
  responder : Element
  /-- when -/
  produced : Element
  /-- what -/
  responses : Element
  /-- what follows -/
  extra : List Element
  /-- when, as a moment -/
  moment : Moment
  /-- the only status -/
  status : Element
  /-- which is good -/
  good : GoodStatus status hash
  /-- these are the parts -/
  data_holds : Holds data.content (versions ++ responder :: produced :: responses :: extra)
  /-- only the version comes before -/
  versions_context : ∀ e ∈ versions, e.isContext 0 = true
  /-- who answers is named in one of two ways -/
  responder_context : responder.isContext 1 = true ∨ responder.isContext 2 = true
  /-- there is such a moment -/
  produced_moment : timeOf? produced = some moment
  /-- it is not too long ago -/
  recent : now - maxAge.seconds ≤ moment.seconds
  /-- and not in the future, as far as clocks agree -/
  past : moment.seconds ≤ now + maxSkew
  /-- there is one status only -/
  responses_holds : Holds responses.content [status]

/-- A tag has one number. -/
theorem isContext_of_ne {e : Element} {m n : Nat} (h : e.isContext m = true) (hne : m ≠ n) :
    e.isContext n = false := by
  simp only [Element.isContext, Bool.and_eq_true, beq_iff_eq] at h
  simp [Element.isContext, h, hne]

theorem checkStatus_eq_ok {status : Element} {hash : Bytes} :
    checkStatus status hash = .ok () ↔ Nonempty (GoodStatus status hash) := by
  simp only [checkStatus]
  constructor
  · intro h
    obtain ⟨fields, hfields, h₁⟩ := bind_eq_ok.mp h
    obtain ⟨verdict, hverdict, h₂⟩ := bind_eq_ok.mp h₁
    obtain ⟨-, h₃⟩ := refuse_eq_ok.mp h₂
    obtain ⟨-, h₄⟩ := refuse_eq_ok.mp h₃
    obtain ⟨hgood, h₅⟩ := refuse_eq_ok.mp h₄
    split at h₅
    · exact nomatch h₅
    · rename_i wrapper hwrapper
      obtain ⟨list, hlist, h₆⟩ := bind_eq_ok.mp h₅
      obtain ⟨extensions, hextensions, h₇⟩ := bind_eq_ok.mp h₆
      obtain ⟨value, hvalue, h₈⟩ := bind_eq_ok.mp h₇
      obtain ⟨naming, rfl⟩ := certHashValue_eq_ok.mp hvalue
      obtain ⟨certHash, hcertHash, h₉⟩ := bind_eq_ok.mp h₈
      obtain ⟨parts, hparts, h₁₀⟩ := bind_eq_ok.mp h₉
      split at h₁₀
      · exact nomatch h₁₀
      · rename_i found hfound
        obtain ⟨htag, h₁₁⟩ := refuse_eq_ok.mp h₁₀
        obtain ⟨hcontent, -⟩ := refuse_eq_ok.mp h₁₁
        -- the fields and the parts, from what is found in them
        obtain ⟨hcontext, before, after, hdrop, hbefore⟩ :=
          List.find?_eq_some_iff_append.mp hwrapper
        obtain ⟨id, update, rfl⟩ : ∃ id update,
            fields = id :: verdict :: update :: before ++ wrapper :: after := by
          rcases fields with _ | ⟨id, _ | ⟨verdict', _ | ⟨update, rest⟩⟩⟩
          · simp at hdrop
          · simp at hdrop
          · simp at hdrop
          · obtain rfl := Option.some.inj (orMalformed_eq_ok.mp hverdict)
            exact ⟨id, update, by simpa using hdrop⟩
        obtain ⟨algorithm, extra, rfl⟩ :
            ∃ algorithm extra, parts = algorithm :: found :: extra := by
          rcases parts with _ | ⟨algorithm, _ | ⟨found', extra⟩⟩
          · exact nomatch hfound
          · exact nomatch hfound
          · exact ⟨algorithm, extra, by rw [Option.some.inj hfound]⟩
        exact ⟨{
          id, verdict, update, before, wrapper, after, list, extensions, naming, certHash, algorithm
          found, extra, status_holds := children_eq_ok.mp hfields
          verdict_context := by simpa using hgood
          before_context := fun e he => by simpa using hbefore e he
          wrapper_context := hcontext, list_fills := single_eq_ok.mp hlist
          list_holds := children_eq_ok.mp hextensions
          certHash_fills := single_eq_ok.mp hcertHash, certHash_holds := children_eq_ok.mp hparts
          found_tag := Decidable.not_not.mp htag, found_content := Decidable.not_not.mp hcontent }⟩
  · rintro ⟨g⟩
    have hfields : children "SingleResponse" status.content = .ok _ :=
      children_eq_ok.mpr g.status_holds
    have hwrapper :
        ((g.id :: g.verdict :: g.update :: g.before ++ g.wrapper :: g.after).drop 3).find?
          (·.isContext 1) = some g.wrapper := by
      refine List.find?_eq_some_iff_append.mpr ⟨g.wrapper_context, g.before, g.after, rfl, ?_⟩
      exact fun e he => by simpa using g.before_context e he
    have hvalue := certHashValue_eq_ok.mpr ⟨g.naming, rfl⟩
    refine bind_eq_ok.mpr ⟨_, hfields, bind_eq_ok.mpr ⟨g.verdict, rfl, ?_⟩⟩
    refine refuse_eq_ok.mpr ⟨by simp [isContext_of_ne g.verdict_context (by decide : 0 ≠ 1)], ?_⟩
    refine refuse_eq_ok.mpr ⟨by simp [isContext_of_ne g.verdict_context (by decide : 0 ≠ 2)], ?_⟩
    refine refuse_eq_ok.mpr ⟨by simp [g.verdict_context], ?_⟩
    rw [hwrapper]
    refine bind_eq_ok.mpr ⟨_, single_eq_ok.mpr g.list_fills, ?_⟩
    refine bind_eq_ok.mpr ⟨_, children_eq_ok.mpr g.list_holds, bind_eq_ok.mpr ⟨_, hvalue, ?_⟩⟩
    refine bind_eq_ok.mpr ⟨_, single_eq_ok.mpr g.certHash_fills, ?_⟩
    refine bind_eq_ok.mpr ⟨_, children_eq_ok.mpr g.certHash_holds, ?_⟩
    refine refuse_eq_ok.mpr ⟨not_not_intro g.found_tag, ?_⟩
    exact refuse_eq_ok.mpr ⟨not_not_intro g.found_content, rfl⟩

/-- Items are left off the front of a list until there is one that stays. -/
theorem dropWhile_eq_cons {α : Type} {f : α → Bool} {l rest : List α} {x : α} :
    l.dropWhile f = x :: rest ↔
      ∃ before, l = before ++ x :: rest ∧ (∀ y ∈ before, f y = true) ∧ f x = false := by
  constructor
  · intro h
    refine ⟨l.takeWhile f, ?_, fun y hy => List.mem_takeWhile_imp hy, ?_⟩
    · rw [← h, List.takeWhile_append_dropWhile]
    · have hne : l.dropWhile f ≠ [] := by simp [h]
      have hhead := List.head_dropWhile_not f hne
      simpa only [h, List.head_cons] using hhead
  · rintro ⟨before, rfl, hbefore, hx⟩
    rw [List.dropWhile_append_of_pos hbefore, List.dropWhile_cons, if_neg (by simp [hx])]

theorem checkData_eq_ok {data : Element} {hash : Bytes} {now : Int} {maxAge : Span}
    (h : maxAge.seconds < 2 ^ 63 - 1) :
    checkData data hash now maxAge = .ok () ↔ Nonempty (GoodAnswer data hash now maxAge) := by
  simp only [checkData]
  constructor
  · intro hok
    obtain ⟨items, hitems, h₁⟩ := bind_eq_ok.mp hok
    split at h₁
    · exact nomatch h₁
    · rename_i responder rest hdrop
      obtain ⟨hresponder, h₂⟩ := refuse_eq_ok.mp h₁
      obtain ⟨produced, hproduced, h₃⟩ := bind_eq_ok.mp h₂
      obtain ⟨_, hfresh, h₄⟩ := bind_eq_ok.mp h₃
      obtain ⟨responses, hresponses, h₅⟩ := bind_eq_ok.mp h₄
      obtain ⟨list, hlist, h₆⟩ := bind_eq_ok.mp h₅
      split at h₆
      · rename_i status
        obtain ⟨versions, rfl, versions_context, -⟩ := dropWhile_eq_cons.mp hdrop
        obtain ⟨moment, produced_moment, recent, past⟩ := (checkFreshness_eq_ok h).mp hfresh
        obtain ⟨good⟩ := checkStatus_eq_ok.mp h₆
        obtain ⟨extra, rfl⟩ : ∃ extra, rest = produced :: responses :: extra := by
          rcases rest with _ | ⟨produced', _ | ⟨responses', extra⟩⟩
          · exact nomatch hproduced
          · exact nomatch hresponses
          · obtain rfl := Option.some.inj (orMalformed_eq_ok.mp hproduced)
            obtain rfl := Option.some.inj (orMalformed_eq_ok.mp hresponses)
            exact ⟨extra, rfl⟩
        have responder_context : responder.isContext 1 = true ∨ responder.isContext 2 = true := by
          cases h₁ : responder.isContext 1 with
          | true => exact .inl rfl
          | false => exact .inr (by simpa [h₁] using hresponder)
        exact ⟨{
          versions, responder, produced, responses, extra, moment, status, good
          data_holds := children_eq_ok.mp hitems, versions_context, responder_context
          produced_moment, recent, past, responses_holds := children_eq_ok.mp hlist }⟩
      · exact nomatch h₆
  · rintro ⟨g⟩
    have hresponder : g.responder.isContext 0 = false := by
      obtain hcontext | hcontext := g.responder_context
      · exact isContext_of_ne hcontext (by decide)
      · exact isContext_of_ne hcontext (by decide)
    have hdrop : (g.versions ++ g.responder :: g.produced :: g.responses :: g.extra).dropWhile
        (·.isContext 0) = g.responder :: g.produced :: g.responses :: g.extra :=
      dropWhile_eq_cons.mpr ⟨g.versions, rfl, g.versions_context, hresponder⟩
    have hfresh : checkFreshness g.produced now maxAge = .ok () :=
      (checkFreshness_eq_ok h).mpr ⟨g.moment, g.produced_moment, g.recent, g.past⟩
    refine bind_eq_ok.mpr ⟨_, children_eq_ok.mpr g.data_holds, ?_⟩
    rw [hdrop]
    refine refuse_eq_ok.mpr ⟨?_, bind_eq_ok.mpr ⟨g.produced, rfl, ?_⟩⟩
    · obtain hcontext | hcontext := g.responder_context
      · simp [hcontext]
      · simp [hcontext]
    · refine bind_eq_ok.mpr ⟨(), hfresh, bind_eq_ok.mpr ⟨g.responses, rfl, ?_⟩⟩
      refine bind_eq_ok.mpr ⟨_, children_eq_ok.mpr g.responses_holds, ?_⟩
      exact checkStatus_eq_ok.mpr ⟨g.good⟩

/-! ## Verification -/

section Verification

variable {ρ σ : Type} {answer : (q : Question) → σ → q.Answer × σ} {t : σ} {issuer : Certificate}

/-- From a state, these answers are given to these questions. -/
def Answered (answer : (q : Question) → σ → q.Answer × σ) : σ → List Exchange → Prop
  | _, [] => True
  | t, x :: d => (answer x.question t).1 = x.answer ∧ Answered answer (answer x.question t).2 d

/-- A computation ends with a value if it does so after a dialogue with these answers. -/
theorem run_eq_iff {α : Type} {c : Consult α} {a : α} :
    (c.run answer t).1 = a ↔ ∃ d, c.Ends d a ∧ Answered answer t d := by
  induction c generalizing t with
  | done b =>
    constructor
    · intro h
      exact ⟨[], ⟨rfl, h⟩, trivial⟩
    · rintro ⟨_, ⟨rfl, h⟩, -⟩
      exact h
  | asking q next ih =>
    constructor
    · intro h
      obtain ⟨d, hends, hanswered⟩ := (ih _).mp h
      exact ⟨⟨q, _⟩ :: d, ⟨_, d, rfl, hends⟩, rfl, hanswered⟩
    · rintro ⟨_, ⟨b, d, rfl, hends⟩, hb, hanswered⟩
      dsimp only at hb hanswered
      subst hb
      exact (ih _).mpr ⟨d, hends, hanswered⟩

/-- A response passes exactly if it is wrapped around signed data that is fresh and good news for
the certificate, and the issuer has signed the very bytes that this data was read from. Ages are
compared as exact numbers as long as the oldest one allowed is below the largest number of 64 bits
with sign. -/
theorem verify_eq_ok (S : Suite ρ) (answer : (q : Question) → σ → q.Answer × σ) (t : σ)
    (response leaf : Bytes) (issuer : Certificate) (now : Int) (maxAge : Span)
    (h : maxAge.seconds < 2 ^ 63 - 1) :
    ((verify S response leaf issuer now maxAge).run.run answer t).1 = .ok () ↔
      ∃ (w : Wrapping response) (key : VerifyingKey),
        Nonempty (GoodAnswer w.data (S.hash leaf) now maxAge) ∧
        (answer (.publicKey issuer) t).1 = .ok key ∧
        (answer (.verify w.digest key w.data.raw w.signature)
          (answer (.publicKey issuer) t).2).1 = .ok (.ok true) := by
  rw [run_eq_iff]
  constructor
  · rintro ⟨d, hends, hanswered⟩
    obtain ⟨status, key, hread, hdata, rfl⟩ := passes_verify.mp hends
    obtain ⟨w, rfl⟩ := read_eq_ok.mp hread
    obtain ⟨hkey, hsigned, -⟩ := hanswered
    exact ⟨w, key, (checkData_eq_ok h).mp hdata, hkey, hsigned⟩
  · rintro ⟨w, key, hgood, hkey, hsigned⟩
    refine ⟨w.signed.exchanges issuer key, passes_verify.mpr ?_, hkey, hsigned, trivial⟩
    exact ⟨w.signed, key, read_eq_ok.mpr ⟨w, rfl⟩, (checkData_eq_ok h).mpr hgood, rfl⟩

end Verification

/-! ### An answer of another kind -/

open TwoIssuers

theorem verify_eq_ok_sample :
    (store.maxAge.seconds < 2 ^ 63 - 1 ∧
      ((verify Suite.standard (status leafHash) leaf.der issuer now store.maxAge).run.run
        authority ()).1 = .ok ()) ∧
    ∃ (w : Wrapping (status leafHash)) (key : VerifyingKey),
      Nonempty (GoodAnswer w.data (Suite.standard.hash leaf.der) now store.maxAge) ∧
      (authority (.publicKey issuer) ()).1 = .ok key ∧
      (authority (.verify w.digest key w.data.raw w.signature) ()).1 = .ok (.ok true) := by
  have hage : store.maxAge.seconds < 2 ^ 63 - 1 := by decide
  have hok : ((verify Suite.standard (status leafHash) leaf.der issuer now store.maxAge).run.run
      authority ()).1 = .ok () := by decide +kernel
  exact ⟨⟨hage, hok⟩, (verify_eq_ok Suite.standard authority () (status leafHash) leaf.der issuer
    now store.maxAge hage).mp hok⟩

/-- A good status where the identifier of its type has the tag of a string of bytes. -/
def mislabelled : Bytes := (status leafHash).set 12 0x04

/-- The type in a response and what is of this type, as they are read. -/
theorem Wrapping.typed_read {response : Bytes} (w : Wrapping response) :
    responseContent response >>= sequence "responseBytes" = .ok [w.kind, w.octets] := by
  have hcontent : responseContent response = .ok w.wrapper.content :=
    responseContent_eq_ok.mpr ⟨_, _, _, _, w.outer_fills, w.outer_sequence, w.outer_holds,
      w.status_tag, w.status_success, w.wrapper_context, rfl⟩
  exact bind_eq_ok.mpr
    ⟨_, hcontent, sequence_eq_ok.mpr ⟨w.typed, w.typed_fills, w.typed_sequence, w.typed_holds⟩⟩

/-- A response passes although its type is told by an element that is no identifier. -/
theorem mislabelled_passes : ¬ ∀ {ρ σ : Type} (S : Suite ρ)
    (answer : (q : Question) → σ → q.Answer × σ) (t : σ) (response leaf : Bytes)
    (issuer : Certificate) (now : Int) (maxAge : Span), maxAge.seconds < 2 ^ 62 →
    (((verify S response leaf issuer now maxAge).run.run answer t).1 = .ok () ↔
      ∃ (w : Wrapping response) (key : VerifyingKey), w.kind.tag = Tag.oid ∧
        Nonempty (GoodAnswer w.data (S.hash leaf) now maxAge) ∧
        (answer (.publicKey issuer) t).1 = .ok key ∧
        (answer (.verify w.digest key w.data.raw w.signature)
          (answer (.publicKey issuer) t).2).1 = .ok (.ok true)) := by
  intro h
  have hok : ((verify Suite.standard mislabelled leaf.der issuer now store.maxAge).run.run
      authority ()).1 = .ok () := by decide +kernel
  obtain ⟨w, key, htag, -⟩ := (h Suite.standard authority () mislabelled leaf.der issuer now
    store.maxAge (by decide)).mp hok
  -- what is read there are two strings of bytes
  have hread : (responseContent mislabelled >>= sequence "responseBytes").map
      (·.map Element.tag) = .ok [Tag.octetString, Tag.octetString] := by decide +kernel
  rw [w.typed_read] at hread
  obtain ⟨hkind, -⟩ := List.cons.inj (Except.ok.inj hread)
  exact absurd (htag.symm.trans hkind) (by decide)

end Ocsp

end SealedTunnel
