import SealedTunnel.Proofs.Channel.Faults
import SealedTunnel.Proofs.Client.Handshake
import SealedTunnel.Proofs.Trust.Conditions

/-!
# When a handshake is worth retrying

An error says whether the network is to blame, so that another handshake makes sense. Here this is
compared with what the network did.

* `ChannelError.Lasts` — the network is not to blame; the channel itself has no other errors.
* `Outer.Failed`, `Outer.Illegible` — a request failed, or was answered with certificates that
  nobody can read.
* `Work.Fails`, `Work.FailsOnly` — the work between two requests fails, and with what, with one
  lemma for each of its parts.
* `Establishment.resume_retryable` — what one reply makes of a handshake.
* `Establishment.retryable_iff` — what all replies make of it.
* `Establishment.retryable_unsent` — an endpoint that names no host is worth retrying.
-/

namespace SealedTunnel

/-! ## The channel -/

namespace ChannelError

/-- The network is not to blame. -/
def Lasts (e : ChannelError) : Prop := e.isNetwork = false

theorem IsFault.lasts {e : ChannelError} (h : e.IsFault) : e.Lasts := by
  cases e with
  | missingSecret | invalidSecretLength | internal => rfl
  | _ => exact h.elim

end ChannelError

open ChannelError (Lasts)

theorem OrFault.lasts {kind : ChannelError → Prop} {p : Prop} {e : ChannelError}
    (h : OrFault kind p e) (hkind : kind e → e.Lasts) : e.Lasts :=
  h.elim hkind fun hfault => hfault.1.lasts

theorem Refused.lasts {message : Nat} {e : ChannelError} (h : Refused message e) : e.Lasts := by
  cases h <;> rfl

theorem TrustDecision.RefusedKeys.lasts {keys : PublicKeys} {now : UInt64} {e : ChannelError}
    (h : TrustDecision.RefusedKeys keys now e) : e.Lasts := by
  obtain ⟨-, rfl⟩ | ⟨reason, rfl⟩ := h
  · rfl
  · rfl

theorem Condition.Raises.lasts {c : Condition} {e : ChannelError} (h : c.Raises e) : e.Lasts := by
  cases c <;> obtain ⟨reason, rfl⟩ := h <;> rfl

theorem lasts_channelId (value : Option Bytes) : FailsOnly Lasts (channelId value) := by
  cases value with
  | none => exact .error rfl
  | some value =>
    simp only [channelId]
    split
    · exact .ok _
    · exact .error rfl

theorem SignedKeys.lasts_publicKeys (signed : SignedKeys) :
    FailsOnly Lasts signed.publicKeys := by
  simp only [publicKeys]
  split
  · exact .ok _
  · exact .error rfl

/-! ## Replies -/

namespace Outer

/-- A request failed: it was lost, or answered with another status than 200. A request that fetches
something is lost with whatever error. -/
inductive Failed (request : Request) : Reply → Prop where
  /-- the network lost it -/
  | lost {e : ClientError} (retryable : e.isRetryable = true) : Failed request (.error e)
  /-- something was to be fetched, and was not -/
  | unfetched {e : ClientError} (fetches : request.method = .get) : Failed request (.error e)
  /-- it was answered with another status -/
  | refused {response : Response} (status : response.status ≠ 200) : Failed request (.ok response)

/-- Certificates were fetched, but cannot be read. -/
def Illegible (request : Request) (reply : Reply) : Prop :=
  request.method = .get ∧ ∃ response : Response, reply = .ok response ∧ response.status = 200 ∧
    ∀ data, Cbor.decode CertData.read response.body ≠ .ok data

variable {request : Request} {reply : Reply}

theorem not_failed_of_ok {response : Response} (h : response.status = 200) :
    ¬ Failed request (.ok response) := by
  rintro (_ | _ | status)
  exact status h

theorem success_of_ne {response : Response} (h : response.status ≠ 200) :
    request.success (.ok response) =
      .error (.status request.method.name request.uri.text response.status) := if_neg h

/-- What is posted counts as lost if the network is to blame. -/
theorem success_retryable (hpost : request.method = .post) :
    (∃ e, request.success reply = .error e ∧ e.isRetryable = true) ↔
      Failed request reply ∨ Illegible request reply := by
  constructor
  · rintro ⟨e, he, hretryable⟩
    cases reply with
    | error e' =>
      obtain rfl := Except.error.inj he
      exact .inl (.lost hretryable)
    | ok response =>
      refine .inl (.refused fun hstatus => ?_)
      exact nomatch (success_eq_ok.mpr ⟨rfl, hstatus⟩).symm.trans he
  · rintro (hfailed | ⟨hget, -⟩)
    · cases hfailed with
      | lost retryable => exact ⟨_, rfl, retryable⟩
      | unfetched fetches => exact nomatch hpost.symm.trans fetches
      | refused status => exact ⟨_, success_of_ne status, rfl⟩
    · exact nomatch hpost.symm.trans hget

end Outer

/-- Whatever goes wrong with certificates on their way is blamed on the network. -/
theorem CertData.ofReply_retryable {request : Outer.Request} {reply : Outer.Reply}
    (hget : request.method = .get) :
    (∃ e, ofChannel (CertData.ofReply request reply) = .error e ∧ e.isRetryable = true) ↔
      Outer.Failed request reply ∨ Outer.Illegible request reply := by
  have hreply : (∃ e, ofChannel (CertData.ofReply request reply) = .error e ∧
      e.isRetryable = true) ↔ ∀ data, CertData.ofReply request reply ≠ .ok data := by
    constructor
    · rintro ⟨e, he, -⟩ data hdata
      rw [hdata] at he
      exact nomatch he
    · intro h
      simp only [CertData.ofReply] at h ⊢
      split
      · exact ⟨_, rfl, rfl⟩
      · rename_i response hresponse
        rw [hresponse] at h
        cases hdecode : Cbor.decode CertData.read response.body with
        | error fault => exact ⟨_, rfl, rfl⟩
        | ok data => exact absurd (by simp only [hdecode]) (h data)
  rw [hreply]
  constructor
  · intro h
    cases reply with
    | error e => exact .inl (.unfetched hget)
    | ok response =>
      by_cases hstatus : response.status = 200
      · refine .inr ⟨hget, response, rfl, hstatus, fun data hdata => ?_⟩
        exact h data (CertData.ofReply_eq_ok.mpr ⟨response, ⟨rfl, hstatus⟩, hdata⟩)
      · exact .inl (.refused hstatus)
  · rintro hfailed data hdata
    obtain ⟨response, ⟨rfl, hstatus⟩, hdecode⟩ := CertData.ofReply_eq_ok.mp hdata
    obtain hfailed | ⟨-, response', hresponse, -, hillegible⟩ := hfailed
    · exact Outer.not_failed_of_ok hstatus hfailed
    · obtain rfl := Except.ok.inj hresponse
      exact hillegible data hdecode

/-! ## Work that fails -/

theorem ofChannel_eq_error {α : Type} {x : Except ChannelError α} {e : ClientError} :
    ofChannel x = .error e ↔ ∃ e', x = .error e' ∧ e = .channel e' := by
  cases x with
  | error e' => simp [ofChannel, eq_comm]
  | ok a => simp [ofChannel]

namespace Work

variable {ρ α β : Type} {judge : Judge} {s : ρ × List Question} {e : ClientError}

/-- Work fails with an error, from a state of the generator and after certain questions. -/
def Fails (judge : Judge) (w : Work ρ α) (s : ρ × List Question) (e : ClientError) : Prop :=
  ∃ s' : ρ × List Question, (w.run.run s.1).run
    (fun q asked => (judge asked q, asked ++ [q])) s.2 = ((.error e, s'.1), s'.2)

theorem fails_bind {w : Work ρ α} {f : α → Work ρ β} : Fails judge (w >>= f) s e ↔
    Fails judge w s e ∨ ∃ a s', Yields judge w s a s' ∧ Fails judge (f a) s' e := by
  have hrun : ((w >>= f).run.run s.1) = (w.run.run s.1).bind fun x =>
      (ExceptT.bindCont f x.1).run x.2 := rfl
  simp only [Fails, Yields]
  rw [hrun, Consult.run_bind]
  rcases (w.run.run s.1).run (fun q asked => (judge asked q, asked ++ [q])) s.2 with
    ⟨⟨e' | a, g⟩, asked⟩
  · constructor
    · rintro ⟨s', h⟩
      obtain rfl := Except.error.inj (Prod.mk.inj (Prod.mk.inj h).1).1
      exact .inl ⟨(g, asked), rfl⟩
    · rintro (⟨s', h⟩ | ⟨a, s', h, -⟩)
      · obtain rfl := Except.error.inj (Prod.mk.inj (Prod.mk.inj h).1).1
        exact ⟨(g, asked), rfl⟩
      · cases (Prod.mk.inj (Prod.mk.inj h).1).1
  · constructor
    · exact fun h => .inr ⟨a, (g, asked), rfl, h⟩
    · rintro (⟨s', h⟩ | ⟨a', s', h, hf⟩)
      · cases (Prod.mk.inj (Prod.mk.inj h).1).1
      · obtain ⟨hresult, hasked⟩ := Prod.mk.inj h
        obtain ⟨ha, hg⟩ := Prod.mk.inj hresult
        obtain rfl := Except.ok.inj ha
        obtain rfl : s' = (g, asked) := Prod.ext hg.symm hasked.symm
        exact hf

theorem fails_lift {x : Except ClientError α} :
    Fails judge (liftM x : Work ρ α) s e ↔ x = .error e := by
  constructor
  · rintro ⟨s', h⟩
    exact (Prod.mk.inj (Prod.mk.inj h).1).1
  · rintro rfl
    exact ⟨s, rfl⟩

/-- A check draws nothing, and asks nothing. -/
theorem fails_lift_bind {x : Except ClientError α} {f : α → Work ρ β} :
    Fails judge (liftM x >>= f) s e ↔
      x = .error e ∨ ∃ a, x = .ok a ∧ Fails judge (f a) s e := by
  rw [fails_bind, fails_lift]
  refine or_congr_right ⟨?_, ?_⟩
  · rintro ⟨a, s', hyields, hf⟩
    obtain ⟨hresult, hasked⟩ := Prod.mk.inj hyields
    obtain ⟨ha, hg⟩ := Prod.mk.inj hresult
    obtain rfl : s = s' := Prod.ext hg hasked
    exact ⟨a, ha, hf⟩
  · rintro ⟨a, rfl, hf⟩
    exact ⟨a, s, rfl, hf⟩

/-- What a judge who was not asked anything before makes of work that fails. -/
theorem fails_iff_under {w : Work ρ α} {g : ρ} :
    Fails judge w (g, []) e ↔ ∃ g', (w.run.run g).under judge = (.error e, g') := by
  constructor
  · rintro ⟨s', h⟩
    exact ⟨s'.1, congrArg Prod.fst h⟩
  · rintro ⟨g', h⟩
    exact ⟨(g', _), Prod.ext h rfl⟩

/-- Whatever goes wrong in some work is final, whoever is asked. -/
def IsFinal (judge : Judge) (w : Work ρ α) : Prop :=
  ∀ s e, Fails judge w s e → e.isRetryable = false

namespace IsFinal

theorem pure (a : α) : IsFinal judge (pure a : Work ρ α) := by
  rintro s e ⟨s', h⟩
  exact nomatch (Prod.mk.inj (Prod.mk.inj h).1).1

theorem bind {w : Work ρ α} {f : α → Work ρ β} (hw : IsFinal judge w)
    (hf : ∀ s a s', Yields judge w s a s' → IsFinal judge (f a)) : IsFinal judge (w >>= f) := by
  intro s e h
  obtain h | ⟨a, s', hyields, h⟩ := fails_bind.mp h
  · exact hw s e h
  · exact hf s a s' hyields s' e h

theorem lift_bind {x : Except ClientError α} {f : α → Work ρ β}
    (hx : FailsOnly (·.isRetryable = false) x) (hf : ∀ a, x = .ok a → IsFinal judge (f a)) :
    IsFinal judge (liftM x >>= f) := by
  intro s e h
  obtain h | ⟨a, ha, h⟩ := fails_lift_bind.mp h
  · exact hx e h
  · exact hf a ha s e h

end IsFinal

/-- The channel blames nobody else. -/
theorem isFinal_ofChannel {x : Except ChannelError α} (h : FailsOnly Lasts x) :
    FailsOnly (·.isRetryable = false) (ofChannel x) := by
  intro e he
  obtain ⟨e', he', rfl⟩ := ofChannel_eq_error.mp he
  exact h e' he'

theorem isFinal_ofDraw {d : Draw ρ α} (h : Draw.FailsOnly Lasts d) :
    IsFinal judge (ofDraw d) := by
  rintro s e ⟨s', hrun⟩
  exact isFinal_ofChannel (h s.1) e (Prod.mk.inj (Prod.mk.inj hrun).1).1

theorem isFinal_ofCheck {c : Check α} (h : ∀ d e, Check.Fails c d e → e.Lasts) :
    IsFinal judge (ofCheck c : Work ρ α) := by
  rintro s e ⟨s', hrun⟩
  have hcheck : (ofCheck c : Work ρ α).run.run s.1 =
    c.run.bind fun x => .done (ofChannel x, s.1) := rfl
  rw [hcheck, Consult.run_bind] at hrun
  obtain ⟨e', he', rfl⟩ := ofChannel_eq_error.mp (Prod.mk.inj (Prod.mk.inj hrun).1).1
  exact h _ e' (he' ▸ Consult.ends_dialogue _ c.run s.2)

/-- If everything after a check is final, only the check decides. -/
theorem retryable_lift_bind {x : Except ClientError α} {f : α → Work ρ β}
    (hf : ∀ a, x = .ok a → IsFinal judge (f a)) :
    (∃ e, Fails judge (liftM x >>= f) s e ∧ e.isRetryable = true) ↔
      ∃ e, x = .error e ∧ e.isRetryable = true := by
  refine exists_congr fun e => ⟨?_, ?_⟩
  · rintro ⟨h, hretryable⟩
    obtain h | ⟨a, ha, h⟩ := fails_lift_bind.mp h
    · exact ⟨h, hretryable⟩
    · exact nomatch hretryable.symm.trans (hf a ha s e h)
  · rintro ⟨h, hretryable⟩
    exact ⟨fails_lift_bind.mpr (.inl h), hretryable⟩

end Work

theorem Drawing.run_bind_eq_error {ρ α β : Type} {d : Drawing ρ α} {f : α → Drawing ρ β} {g g' : ρ}
    {e : ClientError} : (d >>= f).run g = (.error e, g') ↔
      d.run g = (.error e, g') ∨ ∃ a h, d.run g = (.ok a, h) ∧ (f a).run h = (.error e, g') := by
  have hrun : (d >>= f).run g = ExceptT.bindCont f (d.run g).1 (d.run g).2 := rfl
  rw [hrun]
  rcases d.run g with ⟨e' | a, h⟩
  · constructor
    · intro hb
      obtain ⟨he, rfl⟩ := Prod.mk.inj hb
      obtain rfl := Except.error.inj he
      exact .inl rfl
    · rintro (hd | ⟨a, h', ha, -⟩)
      · obtain ⟨he, rfl⟩ := Prod.mk.inj hd
        obtain rfl := Except.error.inj he
        rfl
      · exact nomatch (Prod.mk.inj ha).1
  · constructor
    · exact fun hb => .inr ⟨a, h, rfl, hb⟩
    · rintro (hd | ⟨a', h', ha, hb⟩)
      · exact nomatch (Prod.mk.inj hd).1
      · obtain ⟨hvalue, rfl⟩ := Prod.mk.inj ha
        obtain rfl := Except.ok.inj hvalue
        exact hb

/-! ## Parts of a handshake -/

namespace Establishment

open Handshake Work

variable {ρ : Type} {S : Suite ρ} {policy : TrustPolicy} {environment : Environment}
  {endpoint : String} {g g' : ρ} {e : Establishment} {a : Arrival} {as : List Arrival}
  {rs : List Outer.Request}

/-- Once there are keys to go on with, nothing is worth retrying. -/
theorem isFinal_accept {b : Begun S environment endpoint} (o : Opened b a) (keys : PublicKeys)
    (now : UInt64) (judge : Judge) :
    IsFinal judge (accept S (b.uri "/") o.decision o.cid keys now) := by
  refine .bind (isFinal_ofDraw ?_) fun _ (confirmation, message3) _ _ => ?_
  · exact (o.decision.failsOnly_accept (Nat.lt_succ_self 2048) keys now).imp fun e h =>
      h.lasts TrustDecision.RefusedKeys.lasts
  · have huri : resolve (b.uri "/") o.cid = .ok (b.uri o.cid) :=
      resolve_onHost b.scheme b.authority _ (IsPath.of_channelId o.identified)
    exact .lift_bind (huri ▸ .ok _) fun uri _ => .pure _

/-- A handshake that goes on with a reply has failed in a way that is worth retrying, exactly if the
request failed, or was answered with certificates that cannot be read. -/
theorem resume_retryable (h : Reached S policy environment endpoint as rs e) (a : Arrival) (g : ρ) :
    (∃ error, Fails a.judge (resume S policy a.now e a.reply) (g, []) error ∧
      error.isRetryable = true) ↔
    Outer.Failed e.request a.reply ∨ Outer.Illegible e.request a.reply := by
  cases h with
  | message2 b =>
    refine (retryable_lift_bind fun response hresponse => ?_).trans (Outer.success_retryable rfl)
    refine .lift_bind (isFinal_ofChannel (lasts_channelId _)) fun cid hcid => ?_
    refine .lift_bind (isFinal_ofChannel ?_) fun decision hdecision => ?_
    · have hfails : FailsOnly (OrFault (Refused 2) (S.Delivers 0)) _ :=
        b.initiator.failsOnly_receiveMessage2 response.body
      exact hfails.imp fun e h => h.lasts Refused.lasts
    let o : Opened b a := {
      response, cid, decision, answered := Outer.success_eq_ok.mp hresponse
      identified := ofChannel_eq_ok.mp hcid, opened := ofChannel_eq_ok.mp hdecision }
    cases policy with
    | insecure =>
      refine .lift_bind (isFinal_ofChannel decision.signed.lasts_publicKeys) fun keys _ => ?_
      exact isFinal_accept o keys a.now a.judge
    | verify store =>
      have hrequest := o.request_certificates
      exact .lift_bind (isFinal_ofChannel (hrequest ▸ .ok _)) fun request _ => .pure _
  | certificates b o checked =>
    refine (retryable_lift_bind fun data _ => ?_).trans (CertData.ofReply_retryable rfl)
    refine .bind (isFinal_ofCheck fun d e hfails => ?_) fun _ keys _ _ => ?_
    -- each condition of trust has an error of its own, and none of them blames the network
    · obtain ⟨E, hstops⟩ := TrustStore.stops_verify hfails
      obtain ⟨before, c, after, more, -, -, -, hbreaks⟩ := hstops.exists_breaks
      exact hbreaks.raised.lasts
    · exact isFinal_accept o keys a.now a.judge
  | message4 b o trusted m =>
    refine (retryable_lift_bind fun response _ => ?_).trans (Outer.success_retryable rfl)
    refine .lift_bind (isFinal_ofChannel ?_) fun session _ => .pure _
    exact (m.awaited.failsOnly_receiveMessage4 _).imp fun e h => h.lasts

/-- Whatever is wrong with an endpoint is blamed on the network. -/
theorem resolve_transport (root : Uri) (path : String) :
    FailsOnly (fun e => ∃ reason, e = .transport reason) (resolve root path) := by
  simp only [resolve]
  split
  · exact .error ⟨_, rfl⟩
  · split
    · exact .error ⟨_, rfl⟩
    · exact .ok _

theorem destination_transport (endpoint : String) :
    FailsOnly (fun e => ∃ reason, e = .transport reason) (destination endpoint) := by
  simp only [destination]
  split
  · exact .error ⟨_, rfl⟩
  · exact resolve_transport _ _
  · exact .error ⟨_, rfl⟩

/-- A handshake that does not start is worth retrying exactly if it is the endpoint's fault. -/
theorem start_retryable {error : ClientError}
    (h : (start S environment endpoint).run g = (.error error, g')) :
    error.isRetryable = true ↔ ∃ e, destination endpoint = .error e := by
  simp only [start] at h
  cases hlocated : destination endpoint with
  | error e =>
    rw [hlocated] at h
    obtain rfl := Except.error.inj (Prod.mk.inj h).1
    obtain ⟨reason, rfl⟩ := destination_transport endpoint e hlocated
    exact iff_of_true rfl ⟨_, rfl⟩
  | ok root =>
    refine iff_of_false (fun hretryable => ?_) (by rintro ⟨_, he⟩; cases he)
    obtain ⟨scheme, authority, target, -, rfl⟩ := destination_eq_ok.mp hlocated
    have hpath : IsPath handshakePath := by decide
    have huri : resolve (.onHost scheme authority "/") handshakePath =
      .ok (.onHost scheme authority handshakePath) := resolve_onHost scheme authority _ hpath
    rw [hlocated] at h
    obtain hroot | ⟨root, g₁, hroot, h⟩ := Drawing.run_bind_eq_error.mp h
    · cases (Prod.mk.inj hroot).1
    obtain rfl := Except.ok.inj (Prod.mk.inj hroot).1
    obtain hstart | ⟨initiator, g₂, -, h⟩ := Drawing.run_bind_eq_error.mp h
    · obtain ⟨e, he, rfl⟩ := ofChannel_eq_error.mp (Prod.mk.inj hstart).1
      have hfails : OrFault (· = .internal "ecdh key generation") (S.Serves 0) e :=
        Initiator.failsOnly_start environment g₁ e he
      have hlasts : e.Lasts := hfails.lasts fun heq => heq ▸ rfl
      exact Bool.false_ne_true (hlasts.symm.trans hretryable)
    · rw [huri] at h
      cases (Prod.mk.inj h).1

/-! ## Whole handshakes -/

/-- A handshake goes on until a request fails, and then it is worth retrying. -/
theorem follow_retryable (h : Reached S policy environment endpoint as rs e) (g : ρ)
    (arrivals : List Arrival) :
    (∃ error, (e.follow S policy g arrivals).result = some (.error error) ∧
      error.isRetryable = true) ↔
    ∃ x ∈ (e.follow S policy g arrivals).requests.zip arrivals,
      Outer.Failed x.1 x.2.reply ∨ Outer.Illegible x.1 x.2.reply := by
  -- what was reached is carried along, for it tells what the next reply is a reply to
  induction arrivals generalizing as rs e g with
  | nil => simp [follow]
  | cons a arrivals ih =>
    have hfirst := resume_retryable h a g
    simp only [fails_iff_under] at hfirst
    rcases hresume : ((e.resume S policy a.now a.reply).run.run g).under a.judge with
      ⟨error | (next | ⟨connection, session⟩), g₁⟩
    · simp only [hresume] at hfirst
      simpa [follow, hresume] using hfirst
    · have hlater := ih (resume_reached h hresume) g₁
      have hanswered : ¬ (Outer.Failed e.request a.reply ∨ Outer.Illegible e.request a.reply) := by
        rw [← hfirst]
        simp [hresume]
      simpa [follow, hresume, hanswered] using hlater
    · have hanswered : ¬ (Outer.Failed e.request a.reply ∨ Outer.Illegible e.request a.reply) := by
        rw [← hfirst]
        simp [hresume]
      simpa [follow, hresume] using hanswered

variable (S policy environment endpoint) in
/-- A handshake is worth retrying exactly if one of its requests failed, if it was answered with
certificates that cannot be read, or if the endpoint names no host. -/
theorem retryable_iff (g : ρ) (arrivals : List Arrival) :
    let course := perform S policy environment endpoint g arrivals
    (∃ error, course.result = some (.error error) ∧ error.isRetryable = true) ↔
      (∃ x ∈ course.requests.zip arrivals,
        Outer.Failed x.1 x.2.reply ∨ Outer.Illegible x.1 x.2.reply) ∨
      ∃ e, destination endpoint = .error e := by
  rcases hstart : (start S environment endpoint).run g with ⟨error | e, g₁⟩
  · simpa [perform, hstart] using start_retryable hstart
  · have hreached : Reached S policy environment endpoint [] [e.request] e :=
      start_reached hstart
    obtain ⟨scheme, authority, _, _, _, _, _, hlocated, -⟩ := hreached.prefix_plan
    simpa [perform, hstart, hlocated] using follow_retryable hreached g₁ arrivals

/-- An endpoint without a scheme is worth retrying, although nothing was sent, and so are
certificates that were fetched and are no CBOR. -/
theorem retryable_unsent :
    let course := perform Suite.standard .insecure .testing "vau.example.com" (.ofSeed 1) []
    course.requests = [] ∧
      (∃ error, course.result = some (.error error) ∧ error.isRetryable = true) ∧
      ∃ request reply error, ¬ Outer.Failed request reply ∧
        ofChannel (CertData.ofReply request reply) = .error error ∧ error.isRetryable = true := by
  have hunlocated : destination "vau.example.com" = .error (.transport
    "invalid endpoint vau.example.com: scheme and host required") := by decide +kernel
  have hstart : (start Suite.standard .testing "vau.example.com").run (.ofSeed 1) =
      (.error (.transport "invalid endpoint vau.example.com: scheme and host required"),
        .ofSeed 1) := by
    simp only [start, hunlocated]
    rfl
  simp only [perform, hstart]
  refine ⟨trivial, ⟨_, rfl, rfl⟩, ?_⟩
  let request := Outer.get (.onHost .https ⟨"vau.example.com"⟩ "/CertData.00-1") Outer.cborType
  let reply : Outer.Reply := .ok { status := 200, headers := [], body := [0xa1] }
  have hdecode : (Cbor.decode CertData.read [0xa1]).toOption = none := by decide +kernel
  have hillegible : Outer.Illegible request reply := by
    refine ⟨rfl, _, rfl, rfl, fun data hdata => ?_⟩
    rw [hdata] at hdecode
    cases hdecode
  obtain ⟨error, herror, hretryable⟩ := (CertData.ofReply_retryable rfl).mpr (.inr hillegible)
  exact ⟨request, reply, error, Outer.not_failed_of_ok rfl, herror, hretryable⟩

end Establishment

end SealedTunnel
