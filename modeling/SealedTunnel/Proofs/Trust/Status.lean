import SealedTunnel.Proofs.Checks
import SealedTunnel.Proofs.Trust.Dialogue

/-!
# The check of a revocation status

* `Ocsp.Failed` — the one kind of error that comes of it; `Ocsp.failsOnly_read`,
  `Ocsp.failsOnly_checkData`.
* `Ocsp.Signed.exchanges` — what is asked for it, with the answers that it takes.
* `Ocsp.passes_verify`, `Ocsp.fails_verify` — when it comes out well, and what a bad outcome says.
-/

namespace SealedTunnel

open Check (Passes Fails passes_bind fails_bind passes_lift fails_lift passes_guard fails_guard)

namespace Ocsp

/-- An error of the check of a revocation status. -/
def Failed (e : ChannelError) : Prop := ∃ reason, e = .revocationCheckFailed reason

/-! ## Reading -/

theorem failsOnly_fail {α : Type} (reason : String) :
    FailsOnly Failed (fail reason : Except ChannelError α) := .error ⟨reason, rfl⟩

theorem failsOnly_malformed {α : Type} (what : String) :
    FailsOnly Failed (malformed what : Except ChannelError α) := failsOnly_fail _

theorem failsOnly_orMalformed {α : Type} (what : String) (a : Option α) :
    FailsOnly Failed (orMalformed what a) := by
  cases a with
  | none => exact failsOnly_malformed what
  | some a => exact .ok a

theorem failsOnly_children (what : String) (content : Bytes) :
    FailsOnly Failed (children what content) := failsOnly_orMalformed _ _

theorem failsOnly_single (what : String) (content : Bytes) :
    FailsOnly Failed (single what content) := by
  refine (failsOnly_orMalformed _ _).bind fun (e, rest) => ?_
  dsimp only
  split
  · exact failsOnly_malformed _
  · exact .ok e

theorem failsOnly_sequence (what : String) (content : Bytes) :
    FailsOnly Failed (sequence what content) := by
  refine (failsOnly_single _ _).bind fun e => ?_
  split
  · exact failsOnly_malformed _
  · exact failsOnly_children _ _

theorem failsOnly_digestOf (algorithm : Der.Oid) : FailsOnly Failed (digestOf algorithm) := by
  simp only [digestOf]
  split
  · exact .ok _
  · split
    · exact .ok _
    · exact failsOnly_fail _

theorem failsOnly_responseContent (response : Bytes) :
    FailsOnly Failed (responseContent response) := by
  refine (failsOnly_sequence _ _).bind fun outer => ?_
  refine (failsOnly_orMalformed _ _).bind fun status => ?_
  split
  · exact failsOnly_malformed _
  · split
    · exact failsOnly_fail _
    · split
      · exact failsOnly_fail _
      · split
        · exact .ok _
        · exact failsOnly_fail _

theorem failsOnly_basicContent (content : Bytes) : FailsOnly Failed (basicContent content) := by
  refine (failsOnly_sequence _ _).bind fun parts => ?_
  split
  · split
    · exact failsOnly_fail _
    · split
      · exact failsOnly_malformed _
      · exact .ok _
  · exact failsOnly_malformed _

theorem failsOnly_read (response : Bytes) : FailsOnly Failed (Signed.read response) := by
  refine (failsOnly_responseContent _).bind fun content =>
    (failsOnly_basicContent _).bind fun basic => (failsOnly_sequence _ _).bind fun parts => ?_
  split
  · refine (failsOnly_children _ _).bind fun algorithm =>
      (failsOnly_orMalformed _ _).bind fun algorithm => ?_
    split
    · exact failsOnly_malformed _
    · split
      · exact (failsOnly_digestOf _).bind fun digest => .ok _
      · exact failsOnly_malformed _
  · exact failsOnly_malformed _

/-! ## What is read -/

theorem failsOnly_checkFreshness (produced : Der.Element) (now : Int) (maxAge : Span) :
    FailsOnly Failed (checkFreshness produced now maxAge) := by
  refine (failsOnly_orMalformed _ _).bind fun produced => ?_
  dsimp only
  split
  · exact failsOnly_fail _
  · split
    · exact failsOnly_fail _
    · exact .ok ()

theorem failsOnly_certHashValue (extensions : List Der.Element) :
    FailsOnly Failed (certHashValue extensions) := by
  refine (FailsOnly.mapM (fun e => failsOnly_children _ _) _).bind fun parts => ?_
  dsimp only
  split
  · exact .ok _
  · exact failsOnly_fail _

theorem failsOnly_checkStatus (status : Der.Element) (hash : Bytes) :
    FailsOnly Failed (checkStatus status hash) := by
  refine (failsOnly_children _ _).bind fun fields =>
    (failsOnly_orMalformed _ _).bind fun verdict => ?_
  split
  · exact failsOnly_fail _
  split
  · exact failsOnly_fail _
  split
  · exact failsOnly_malformed _
  split
  · exact failsOnly_fail _
  refine (failsOnly_single _ _).bind fun extensions => (failsOnly_children _ _).bind fun list =>
    (failsOnly_certHashValue _).bind fun value => (failsOnly_single _ _).bind fun certHash =>
    (failsOnly_children _ _).bind fun parts => ?_
  split
  · exact failsOnly_malformed _
  split
  · exact failsOnly_malformed _
  split
  · exact failsOnly_fail _
  · exact .ok ()

theorem failsOnly_checkData (data : Der.Element) (hash : Bytes) (now : Int) (maxAge : Span) :
    FailsOnly Failed (checkData data hash now maxAge) := by
  refine (failsOnly_children _ _).bind fun fields => ?_
  dsimp only
  split
  · exact failsOnly_malformed _
  split
  · exact failsOnly_malformed _
  refine (failsOnly_orMalformed _ _).bind fun produced =>
    (failsOnly_checkFreshness _ _ _).bind fun _ => (failsOnly_orMalformed _ _).bind fun responses =>
    (failsOnly_children _ _).bind fun list => ?_
  split
  · exact failsOnly_checkStatus _ _
  · exact failsOnly_fail _

/-! ## The check -/

/-- The questions about a signature by an issuer with this key, and the answers that it takes. -/
def Signed.exchanges (s : Signed) (issuer : Certificate) (key : VerifyingKey) : List Exchange :=
  [⟨.publicKey issuer, .ok key⟩, ⟨.verify s.digest key s.data.raw s.signature, .ok (.ok true)⟩]

variable {d : List Exchange} {e : ChannelError} {issuer : Certificate}

theorem Signed.passes_check {s : Signed} :
    Passes (s.check issuer) d () ↔ ∃ key, d = s.exchanges issuer key := by
  constructor
  · rintro ⟨reason | key, rest, rfl, h⟩
    · exact nomatch h.2
    · obtain ⟨reason | (reason | valid), rest, rfl, h⟩ := h
      · exact nomatch h.2
      · exact nomatch h.2
      · cases valid with
        | false => exact nomatch h.2
        | true =>
          obtain ⟨rfl, -⟩ := h
          exact ⟨key, rfl⟩
  · rintro ⟨key, rfl⟩
    exact ⟨.ok key, _, rfl, .ok (.ok true), [], rfl, rfl, rfl⟩

theorem Signed.fails_check {s : Signed} (h : Fails (s.check issuer) d e) :
    Failed e ∧
      ∃ key, d.map Exchange.question <+: (s.exchanges issuer key).map Exchange.question := by
  obtain ⟨reason | key, rest, rfl, h⟩ := h
  · obtain ⟨rfl, h⟩ := h
    exact ⟨⟨_, (Except.error.inj h).symm⟩, ⟨[]⟩, _, rfl⟩
  · obtain ⟨reason | (reason | valid), rest, rfl, h⟩ := h
    · obtain ⟨rfl, h⟩ := h
      exact ⟨⟨_, (Except.error.inj h).symm⟩, key, _, rfl⟩
    · obtain ⟨rfl, h⟩ := h
      exact ⟨⟨_, (Except.error.inj h).symm⟩, key, _, rfl⟩
    · cases valid with
      | false =>
        obtain ⟨rfl, h⟩ := h
        exact ⟨⟨_, (Except.error.inj h).symm⟩, key, _, rfl⟩
      | true => exact nomatch h.2

variable {ρ : Type} {S : Suite ρ} {response leaf : Bytes} {now : Int} {maxAge : Span}

/-- An empty response cannot be read. -/
theorem read_nil (signed : Signed) : Signed.read [] ≠ .ok signed := by
  intro h
  exact nomatch h

/-- What is read of the response is good, and the issuer has signed it. -/
theorem passes_verify :
    Passes (verify S response leaf issuer now maxAge) d () ↔
      ∃ status key, Signed.read response = .ok status ∧
        checkData status.data (S.hash leaf) now maxAge = .ok () ∧
        d = status.exchanges issuer key := by
  rw [verify, passes_guard, passes_bind]
  constructor
  · rintro ⟨-, status, _, d₂, rfl, ⟨rfl, hread⟩, h⟩
    obtain ⟨_, d₃, _, rfl, hcheck, rfl, hdata⟩ := passes_bind.mp h
    obtain ⟨key, rfl⟩ := Signed.passes_check.mp hcheck
    exact ⟨status, key, hread, hdata, List.append_nil _⟩
  · rintro ⟨status, key, hread, hdata, rfl⟩
    refine ⟨?_, status, [], _, rfl, ⟨rfl, hread⟩, passes_bind.mpr ⟨(), _, [], ?_,
      Signed.passes_check.mpr ⟨key, rfl⟩, rfl, hdata⟩⟩
    · rintro rfl
      exact read_nil status hread
    · exact (List.append_nil _).symm

/-- Only what belongs to the response is asked, and whatever goes wrong is the check's own error. -/
theorem fails_verify (h : Fails (verify S response leaf issuer now maxAge) d e) :
    Failed e ∧ (d = [] ∨ ∃ (status : Signed) (key : VerifyingKey),
      d.map Exchange.question <+: (status.exchanges issuer key).map Exchange.question) := by
  rw [verify, fails_guard, fails_bind] at h
  obtain ⟨-, rfl, rfl⟩ | ⟨-, ⟨rfl, hread⟩ | ⟨status, _, d₂, rfl, ⟨rfl, -⟩, hrest⟩⟩ := h
  · exact ⟨⟨_, rfl⟩, .inl rfl⟩
  · exact ⟨failsOnly_read response e hread, .inl rfl⟩
  · obtain hcheck | ⟨_, d₃, _, rfl, hcheck, rfl, hdata⟩ := fails_bind.mp hrest
    · obtain ⟨he, key, hasked⟩ := Signed.fails_check hcheck
      exact ⟨he, .inr ⟨status, key, hasked⟩⟩
    · obtain ⟨key, rfl⟩ := Signed.passes_check.mp hcheck
      rw [List.nil_append, List.append_nil]
      exact ⟨failsOnly_checkData _ _ _ _ e hdata, .inr ⟨status, key, List.prefix_refl _⟩⟩

end Ocsp

end SealedTunnel
