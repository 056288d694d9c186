import SealedTunnel.Proofs.Channel.Steps
import SealedTunnel.Proofs.Client.Lines
import SealedTunnel.Proofs.Client.Locations

/-!
# What a handshake asks for

Every request of a handshake follows from the replies before it. The network
sends what it likes, and certificates are judged by anybody.

* `Arrival` — a reply, when it comes, and who judges the certificates in it.
* `Handshake.Begun`, `Handshake.Opened`, `Handshake.Trusts` — message 1 was posted, message 2 was
  opened, and the keys in it are trusted.
* `Handshake.Reached`, `Handshake.Completed` — how far a handshake has come, with its requests.
* `Work.Yields` — the work between two requests succeeds, with one lemma for each of its parts.
* `Establishment.start_reached`, `Establishment.resume_reached`, `Establishment.resume_completed` —
  each part of a handshake goes on from what was reached before it.
* `Establishment.start_eq_ok`, `Establishment.resume_unchecked`, `Establishment.resume_confirmed` —
  what it takes for a part to succeed.
* `Handshake.plan` — the requests of a handshake that comes to its end.
* `Establishment.perform` — a whole handshake.
-/

namespace SealedTunnel

/-! ## Replies -/

/-- A reply. -/
structure Arrival where
  /-- when it comes -/
  now : UInt64
  /-- what it is -/
  reply : Outer.Reply
  /-- who judges the certificates in it -/
  judge : Judge

/-- The reply is an answer with status 200. -/
def Arrival.Answers (a : Arrival) (response : Outer.Response) : Prop :=
  a.reply = .ok response ∧ response.status = 200

theorem Outer.success_eq_ok {request : Outer.Request} {reply : Outer.Reply}
    {response : Outer.Response} :
    request.success reply = .ok response ↔ reply = .ok response ∧ response.status = 200 := by
  cases reply with
  | error e => simp [Outer.Request.success, Except.bind]
  | ok r =>
    simp only [Outer.Request.success, Except.bind, Outer.expectOk]
    split
    · rename_i hstatus
      constructor
      · intro h
        obtain rfl := Except.ok.inj h
        exact ⟨rfl, hstatus⟩
      · exact And.left
    · rename_i hstatus
      constructor
      · intro h
        cases h
      · rintro ⟨h, hstatus'⟩
        obtain rfl := Except.ok.inj h
        exact absurd hstatus' hstatus

/-! ## How far a handshake has come -/

namespace Handshake

open Draw (Yields)

variable {ρ : Type}

/-- A handshake with the host of an endpoint has started. -/
structure Begun (S : Suite ρ) (environment : Environment) (endpoint : String) where
  /-- the scheme of the host -/
  scheme : Scheme
  /-- the host -/
  authority : Authority
  /-- the initiator -/
  initiator : Initiator
  /-- the generator before its keys were made -/
  before : ρ
  /-- and after it -/
  after : ρ
  /-- it is the host of the endpoint -/
  located : destination endpoint = .ok (.onHost scheme authority "/")
  /-- the keys were made -/
  started : Yields (Initiator.start S environment) before initiator after

variable {S : Suite ρ} {environment : Environment} {endpoint : String}

namespace Begun

/-- A path on the host. -/
def uri (b : Begun S environment endpoint) (path : String) : Uri :=
  .onHost b.scheme b.authority path

/-- The request with message 1. -/
def request (b : Begun S environment endpoint) : Outer.Request :=
  Establishment.post (b.uri "/VAU") b.initiator.message1

end Begun

/-- Message 2 was opened, and came with an identifier for the channel. -/
structure Opened (b : Begun S environment endpoint) (a : Arrival) where
  /-- what message 2 came in -/
  response : Outer.Response
  /-- the identifier of the channel -/
  cid : String
  /-- what has to be trusted -/
  decision : TrustDecision
  /-- the request with message 1 was answered -/
  answered : a.Answers response
  /-- the identifier is one -/
  identified : channelId (response.headers.values "vau-cid").head? = .ok cid
  /-- message 2 was decoded and decrypted -/
  opened : b.initiator.receiveMessage2 S response.body = .ok decision

variable {b : Begun S environment endpoint} {a : Arrival}

/-- The request for the certificates that go with the signed keys. -/
def Opened.certificates (o : Opened b a) : Outer.Request :=
  Outer.get (b.uri (certDataPath o.decision.signed.certHash o.decision.signed.version))
    Outer.cborType

/-- The path of the certificates is never refused. -/
theorem Opened.request_certificates (o : Opened b a) : CertData.request (b.uri "/")
    o.decision.signed.certHash o.decision.signed.version = .ok o.certificates := by
  simp only [CertData.request, Begun.uri, Uri.onHost, certDataUri_onHost]
  rfl

/-- A policy accepts the signed keys as certain public keys at a certain time. This may take a
request and its reply. -/
inductive Trusts (o : Opened b a) :
    TrustPolicy → List Outer.Request → List Arrival → UInt64 → PublicKeys → Prop where
  /-- without any check -/
  | insecure {keys : PublicKeys} (decoded : o.decision.signed.publicKeys = .ok keys) :
    Trusts o .insecure [] [] a.now keys
  /-- with all checks, made on the certificates that were fetched -/
  | verify {store : TrustStore} {a' : Arrival} {response : Outer.Response} {data : CertData}
    {keys : PublicKeys} (answered : a'.Answers response)
    (decoded : Cbor.decode CertData.read response.body = .ok data)
    (verified : (store.verify S TrustPolicy.responderOid o.decision.signed data
      (Establishment.instant a'.now)).run.under a'.judge = .ok keys) :
    Trusts o (.verify store) [o.certificates] [a'] a'.now keys

/-- The request with message 3, which goes to the channel. -/
def Opened.request (o : Opened b a) {keys : PublicKeys} {now : UInt64} {g g' : ρ}
    (m : o.decision.Accepted S keys now g g') : Outer.Request :=
  Establishment.post (b.uri o.cid) (Wire.write m.message3)

/-- The replies so far, the requests so far, and what a handshake waits for. -/
inductive Reached (S : Suite ρ) (policy : TrustPolicy) (environment : Environment)
    (endpoint : String) : List Arrival → List Outer.Request → Establishment → Prop where
  /-- it has posted message 1 -/
  | message2 (b : Begun S environment endpoint) : Reached S policy environment endpoint []
    [b.request] { endpoint := b.uri "/", request := b.request, stage := .message2 b.initiator }
  /-- it has opened message 2, and asked for the certificates to check the keys in it -/
  | certificates {a : Arrival} {store : TrustStore} (b : Begun S environment endpoint)
    (o : Opened b a) (checked : policy = .verify store) :
    Reached S policy environment endpoint [a] [b.request, o.certificates] {
      endpoint := b.uri "/", request := o.certificates
      stage := .certificates store o.decision o.cid }
  /-- it trusts the keys, and has posted message 3, which is made for them -/
  | message4 {a : Arrival} {as : List Arrival} {rs : List Outer.Request} {now : UInt64}
    {keys : PublicKeys} {g g' : ρ} (b : Begun S environment endpoint) (o : Opened b a)
    (trusted : Trusts o policy rs as now keys) (m : o.decision.Accepted S keys now g g') :
    Reached S policy environment endpoint (a :: as) (b.request :: rs ++ [o.request m]) {
      endpoint := b.uri "/", request := o.request m, stage := .message4 m.awaited o.cid }

/-- The replies, the requests, and what came out of a handshake: message 4 confirms the hash of the
three messages before it. -/
inductive Completed (S : Suite ρ) (policy : TrustPolicy) (environment : Environment)
    (endpoint : String) : List Arrival → List Outer.Request → Connection → Session → Prop where
  /-- after message 4 -/
  | intro {a a' : Arrival} {as : List Arrival} {rs : List Outer.Request} {now : UInt64}
    {keys : PublicKeys} {g g' : ρ} {response : Outer.Response} {message : Message4}
    (b : Begun S environment endpoint) (o : Opened b a)
    (trusted : Trusts o policy rs as now keys) (m : o.decision.Accepted S keys now g g')
    (answered : a'.Answers response) (decoded : decodeMessage "M4" 4 response.body = .ok message)
    (confirmed : Envelope.decrypt S "message 4" m.keys.confirmToInitiator message.confirmation =
      .ok (S.hash (b.initiator.message1 ++ o.response.body ++ Wire.write m.message3))) :
    Completed S policy environment endpoint (a :: as ++ [a']) (b.request :: rs ++ [o.request m])
      { endpoint := b.uri "/", cid := o.cid, uri := b.uri o.cid }
      (.start .initiator environment m.keys)

/-! ### The decision -/

/-- The decision is about message 1 as it was posted, and about message 2 as it came. -/
theorem Opened.transcript (o : Opened b a) : o.decision.message1 ++ o.decision.message2 =
    b.initiator.message1 ++ o.response.body := by
  obtain ⟨_, _, _, _, _, -, -, -, -, -, hdecision⟩ := Initiator.receiveMessage2_eq_ok.mp o.opened
  rw [hdecision]

/-- The channel will be used where it was asked for. -/
theorem Opened.environment_eq (o : Opened b a) : o.decision.environment = environment := by
  obtain ⟨_, _, _, _, _, -, -, -, -, -, hdecision⟩ := Initiator.receiveMessage2_eq_ok.mp o.opened
  obtain ⟨keys, _, -, hkeys⟩ := Draw.yields_bind.mp b.started
  have hinitiator := (Draw.yields_pure.mp hkeys).1
  rw [hdecision, ← hinitiator]
  rfl

/-! ### The requests -/

/-- The requests of a handshake that comes to its end. -/
def plan (policy : TrustPolicy) (root : String → Uri) (message1 : Bytes) (certHash : Bytes)
    (version : UInt64) (cid : String) (message3 : Bytes) : List Outer.Request :=
  Establishment.post (root "/VAU") message1 ::
    (match policy with
      | .insecure => []
      | .verify _ => [Outer.get (root (certDataPath certHash version)) Outer.cborType]) ++
    [Establishment.post (root cid) message3]

variable {policy : TrustPolicy} {as : List Arrival} {rs : List Outer.Request}
  {e : Establishment} {now : UInt64} {keys : PublicKeys}

/-- Every reply that a verdict took was an answer with status 200. -/
theorem Trusts.answered (o : Opened b a) (h : Trusts o policy rs as now keys) :
    rs.length = as.length ∧ ∀ a' ∈ as, ∃ response, a'.Answers response := by
  cases h with
  | insecure => simp
  | verify answered => simpa using ⟨_, answered⟩

/-- A handshake asks for nothing but what is in the plan, in this order. -/
theorem Reached.prefix_plan (h : Reached S policy environment endpoint as rs e) :
    ∃ scheme authority message1 certHash version cid message3,
      destination endpoint = .ok (.onHost scheme authority "/") ∧
      rs <+: plan policy (.onHost scheme authority) message1 certHash version cid message3 := by
  cases h with
  | message2 b =>
    refine ⟨b.scheme, b.authority, b.initiator.message1, [], 0, "", [], b.located, ?_⟩
    simp [plan, Begun.request, Begun.uri]
  | certificates b o checked =>
    refine ⟨b.scheme, b.authority, b.initiator.message1, o.decision.signed.certHash,
      o.decision.signed.version, "", [], b.located, ?_⟩
    subst checked
    simp [plan, Begun.request, Begun.uri, Opened.certificates]
  | message4 b o trusted m =>
    refine ⟨b.scheme, b.authority, b.initiator.message1, o.decision.signed.certHash,
      o.decision.signed.version, o.cid, Wire.write m.message3, b.located, ?_⟩
    cases trusted with
    | insecure => exact List.prefix_rfl
    | verify => exact List.prefix_rfl

/-- Every reply so far was an answer with status 200, and there is one request more. -/
theorem Reached.answered (h : Reached S policy environment endpoint as rs e) :
    rs.length = as.length + 1 ∧ ∀ a ∈ as, ∃ response, a.Answers response := by
  cases h with
  | message2 b => simp
  | certificates b o checked => simpa using ⟨_, o.answered⟩
  | message4 b o trusted m =>
    obtain ⟨hlength, hanswered⟩ := trusted.answered o
    refine ⟨by simp [hlength], fun a ha => ?_⟩
    obtain rfl | ha := List.mem_cons.mp ha
    · exact ⟨_, o.answered⟩
    · exact hanswered a ha

/-- A handshake waits for the reply to its last request. -/
theorem Reached.request (h : Reached S policy environment endpoint as rs e) :
    rs.getLast? = some e.request := by
  cases h with
  | message2 b => rfl
  | certificates b o checked => rfl
  | message4 b o trusted m => exact List.getLast?_concat

end Handshake

/-! ## Work that succeeds -/

theorem ofChannel_eq_ok {α : Type} {x : Except ChannelError α} {a : α} :
    ofChannel x = .ok a ↔ x = .ok a := by
  cases x with
  | error e => simp [ofChannel]
  | ok b => simp [ofChannel]

namespace Work

variable {ρ α β : Type} {judge : Judge} {s s' : ρ × List Question}

/-- Work succeeds with a value. It starts from a state of the generator, after certain questions,
and ends with others. -/
def Yields (judge : Judge) (w : Work ρ α) (s : ρ × List Question) (a : α)
    (s' : ρ × List Question) : Prop :=
  (w.run.run s.1).run (fun q asked => (judge asked q, asked ++ [q])) s.2 = ((.ok a, s'.1), s'.2)

theorem yields_bind {w : Work ρ α} {f : α → Work ρ β} {b : β} :
    Yields judge (w >>= f) s b s' ↔ ∃ a t, Yields judge w s a t ∧ Yields judge (f a) t b s' := by
  have hrun : ((w >>= f).run.run s.1) = (w.run.run s.1).bind fun x =>
      (ExceptT.bindCont f x.1).run x.2 := rfl
  simp only [Yields]
  rw [hrun, Consult.run_bind]
  rcases (w.run.run s.1).run (fun q asked => (judge asked q, asked ++ [q])) s.2 with
    ⟨⟨e | a, g⟩, asked⟩
  · constructor
    · intro h
      exact nomatch (Prod.mk.inj (Prod.mk.inj h).1).1
    · rintro ⟨a, t, h, -⟩
      exact nomatch (Prod.mk.inj (Prod.mk.inj h).1).1
  · constructor
    · intro h
      exact ⟨a, (g, asked), rfl, h⟩
    · rintro ⟨a', t, h, hf⟩
      obtain ⟨hresult, hasked⟩ := Prod.mk.inj h
      obtain ⟨ha, hg⟩ := Prod.mk.inj hresult
      obtain rfl := Except.ok.inj ha
      obtain rfl : t = (g, asked) := Prod.ext hg.symm hasked.symm
      exact hf

theorem yields_pure {a b : α} : Yields judge (pure a : Work ρ α) s b s' ↔ a = b ∧ s = s' := by
  simp only [Yields]
  constructor
  · intro h
    obtain ⟨hresult, hasked⟩ := Prod.mk.inj h
    obtain ⟨ha, hg⟩ := Prod.mk.inj hresult
    exact ⟨Except.ok.inj ha, Prod.ext hg hasked⟩
  · rintro ⟨rfl, rfl⟩
    rfl

/-- A check draws nothing, and asks nothing. -/
theorem yields_lift_bind {x : Except ClientError α} {f : α → Work ρ β} {b : β} :
    Yields judge (liftM x >>= f) s b s' ↔ ∃ a, x = .ok a ∧ Yields judge (f a) s b s' := by
  rw [yields_bind]
  constructor
  · rintro ⟨a, t, h, hf⟩
    obtain ⟨hresult, hasked⟩ := Prod.mk.inj h
    obtain ⟨ha, hg⟩ := Prod.mk.inj hresult
    obtain rfl : s = t := Prod.ext hg hasked
    exact ⟨a, ha, hf⟩
  · rintro ⟨a, rfl, hf⟩
    exact ⟨a, s, rfl, hf⟩

theorem yields_ofDraw {d : Draw ρ α} {a : α} :
    Yields judge (ofDraw d) s a s' ↔ Draw.Yields d s.1 a s'.1 ∧ s'.2 = s.2 := by
  have hrun : (ofDraw d).run.run s.1 = .done (ofChannel (d.run s.1).1, (d.run s.1).2) := rfl
  simp only [Yields, Draw.Yields]
  rw [hrun, Consult.run]
  constructor
  · intro h
    obtain ⟨hresult, hasked⟩ := Prod.mk.inj h
    obtain ⟨ha, hg⟩ := Prod.mk.inj hresult
    exact ⟨⟨ofChannel_eq_ok.mp ha, hg⟩, hasked.symm⟩
  · rintro ⟨⟨ha, hg⟩, hasked⟩
    rw [ha, hg, hasked]
    rfl

/-- A check under a judge who was not asked anything before. -/
theorem yields_ofCheck {c : Check α} {g : ρ} {a : α} (h : Yields judge (ofCheck c) (g, []) a s') :
    c.run.under judge = .ok a := by
  have hrun : (ofCheck c : Work ρ α).run.run g = c.run.bind fun x => .done (ofChannel x, g) := rfl
  rw [Yields, hrun, Consult.run_bind, Consult.run] at h
  exact ofChannel_eq_ok.mp (Prod.mk.inj (Prod.mk.inj h).1).1

/-- What a judge who was not asked anything before makes of work that succeeds. -/
theorem yields_of_under {w : Work ρ α} {g g' : ρ} {a : α}
    (h : (w.run.run g).under judge = (.ok a, g')) :
    ∃ asked, Yields judge w (g, []) a (g', asked) := ⟨_, Prod.ext h rfl⟩

/-- And the other way round. -/
theorem Yields.under {w : Work ρ α} {g : ρ} {a : α} {t : ρ × List Question}
    (h : Yields judge w (g, []) a t) : (w.run.run g).under judge = (.ok a, t.1) :=
  congrArg Prod.fst h

end Work

theorem CertData.ofReply_eq_ok {request : Outer.Request} {reply : Outer.Reply} {data : CertData} :
    CertData.ofReply request reply = .ok data ↔ ∃ response : Outer.Response,
      (reply = .ok response ∧ response.status = 200) ∧
      Cbor.decode CertData.read response.body = .ok data := by
  simp only [CertData.ofReply, ← @Outer.success_eq_ok request]
  cases request.success reply with
  | error e => simp
  | ok response =>
    cases hdecode : Cbor.decode CertData.read response.body with
    | error fault => simp [hdecode]
    | ok data' => simp [hdecode]

theorem Drawing.run_bind_eq_ok {ρ α β : Type} {d : Drawing ρ α} {f : α → Drawing ρ β} {g g' : ρ}
    {b : β} : (d >>= f).run g = (.ok b, g') ↔
      ∃ a h, d.run g = (.ok a, h) ∧ (f a).run h = (.ok b, g') := by
  have hrun : (d >>= f).run g = ExceptT.bindCont f (d.run g).1 (d.run g).2 := rfl
  rw [hrun]
  rcases d.run g with ⟨e | a, h⟩
  · constructor
    · intro hb
      exact nomatch (Prod.mk.inj hb).1
    · rintro ⟨a, h', ha, -⟩
      exact nomatch (Prod.mk.inj ha).1
  · constructor
    · intro hb
      exact ⟨a, h, rfl, hb⟩
    · rintro ⟨a', h', ha, hb⟩
      obtain ⟨hvalue, rfl⟩ := Prod.mk.inj ha
      obtain rfl := Except.ok.inj hvalue
      exact hb

/-! ## The parts of a handshake -/

namespace Establishment

open Handshake

variable {ρ : Type} {S : Suite ρ} {policy : TrustPolicy} {environment : Environment}
  {endpoint : String} {g g' : ρ} {e next : Establishment} {a : Arrival} {as : List Arrival}
  {rs : List Outer.Request}

/-- A handshake starts with message 1. -/
theorem start_reached (h : (start S environment endpoint).run g = (.ok e, g')) :
    Reached S policy environment endpoint [] [e.request] e := by
  have hpath : IsPath handshakePath := by decide
  simp only [start] at h
  obtain ⟨root, g₁, hroot, h⟩ := Drawing.run_bind_eq_ok.mp h
  obtain ⟨initiator, g₂, hstart, h⟩ := Drawing.run_bind_eq_ok.mp h
  obtain ⟨uri, g₃, huri, h⟩ := Drawing.run_bind_eq_ok.mp h
  have hlocated : destination endpoint = .ok root := (Prod.mk.inj hroot).1
  have hstarted : ofChannel ((Initiator.start S environment).run g₁).1 = .ok initiator :=
    (Prod.mk.inj hstart).1
  have huri : resolve root handshakePath = .ok uri := (Prod.mk.inj huri).1
  obtain rfl := Except.ok.inj (Prod.mk.inj h).1
  obtain ⟨scheme, authority, target, -, rfl⟩ := destination_eq_ok.mp hlocated
  obtain rfl := Except.ok.inj ((resolve_onHost scheme authority _ hpath).symm.trans huri)
  exact .message2 {
    scheme, authority, initiator, before := g₁, after := _, located := hlocated
    started := ⟨ofChannel_eq_ok.mp hstarted, rfl⟩ }

/-- What follows once keys are trusted is message 3, which is made for them. -/
theorem yields_accept {b : Begun S environment endpoint} {arrival : Arrival}
    {o : Opened b arrival} {keys : PublicKeys} {now : UInt64} {judge : Judge}
    {s s' : ρ × List Question} {progress : Progress}
    (h : Work.Yields judge (accept S (b.uri "/") o.decision o.cid keys now) s progress s') :
    ∃ m : o.decision.Accepted S keys now s.1 s'.1, progress = .waiting {
      endpoint := b.uri "/", request := o.request m, stage := .message4 m.awaited o.cid } := by
  simp only [accept] at h
  obtain ⟨⟨confirmation, message3⟩, t, haccept, h⟩ := Work.yields_bind.mp h
  obtain ⟨uri, huri, h⟩ := Work.yields_lift_bind.mp h
  obtain ⟨rfl, rfl⟩ := Work.yields_pure.mp h
  obtain ⟨haccept, -⟩ := Work.yields_ofDraw.mp haccept
  obtain ⟨m, rfl, rfl⟩ := TrustDecision.yields_accept.mp haccept
  have hpath := IsPath.of_channelId o.identified
  obtain rfl := Except.ok.inj ((resolve_onHost b.scheme b.authority _ hpath).symm.trans huri)
  exact ⟨m, rfl⟩

/-- What a handshake with an answer to message 1 goes on with. -/
theorem resume_message2 {b : Begun S environment endpoint} {judge : Judge}
    {s s' : ρ × List Question} {progress : Progress} (h : Work.Yields judge
      (resume S policy a.now ⟨b.uri "/", b.request, .message2 b.initiator⟩ a.reply) s progress s') :
    ∃ o : Opened b a,
      (∃ store, policy = .verify store ∧ progress = .waiting {
        endpoint := b.uri "/", request := o.certificates
        stage := .certificates store o.decision o.cid }) ∨
      ∃ (keys : PublicKeys) (m : o.decision.Accepted S keys a.now s.1 s'.1),
        Trusts o policy [] [] a.now keys ∧ progress = .waiting {
          endpoint := b.uri "/", request := o.request m, stage := .message4 m.awaited o.cid } := by
  simp only [resume] at h
  obtain ⟨response, hresponse, h⟩ := Work.yields_lift_bind.mp h
  obtain ⟨cid, hcid, h⟩ := Work.yields_lift_bind.mp h
  obtain ⟨decision, hdecision, h⟩ := Work.yields_lift_bind.mp h
  let o : Opened b a := {
    response, cid, decision, answered := Outer.success_eq_ok.mp hresponse
    identified := ofChannel_eq_ok.mp hcid, opened := ofChannel_eq_ok.mp hdecision }
  refine ⟨o, ?_⟩
  cases policy with
  | insecure =>
    obtain ⟨keys, hkeys, h⟩ := Work.yields_lift_bind.mp h
    obtain ⟨m, hprogress⟩ := yields_accept (o := o) h
    exact .inr ⟨keys, m, .insecure (ofChannel_eq_ok.mp hkeys), hprogress⟩
  | verify store =>
    obtain ⟨request, hrequest, h⟩ := Work.yields_lift_bind.mp h
    obtain ⟨rfl, rfl⟩ := Work.yields_pure.mp h
    refine .inl ⟨store, rfl, ?_⟩
    obtain rfl := Except.ok.inj (o.request_certificates.symm.trans (ofChannel_eq_ok.mp hrequest))
    rfl

/-- What a handshake with certificates goes on with. -/
theorem resume_certificates {b : Begun S environment endpoint} {arrival : Arrival}
    {o : Opened b arrival} {store : TrustStore} {s' : ρ × List Question} {progress : Progress}
    (checked : policy = .verify store) (h : Work.Yields a.judge
      (resume S policy a.now ⟨b.uri "/", o.certificates, .certificates store o.decision o.cid⟩
        a.reply) (g, []) progress s') :
    ∃ (keys : PublicKeys) (g₁ : ρ) (m : o.decision.Accepted S keys a.now g₁ s'.1),
      Trusts o policy [o.certificates] [a] a.now keys ∧ progress = .waiting {
        endpoint := b.uri "/", request := o.request m, stage := .message4 m.awaited o.cid } := by
  simp only [resume] at h
  obtain ⟨data, hdata, h⟩ := Work.yields_lift_bind.mp h
  obtain ⟨keys, t, hkeys, h⟩ := Work.yields_bind.mp h
  have hverified := Work.yields_ofCheck hkeys
  obtain ⟨m, hprogress⟩ := yields_accept h
  obtain ⟨response, hanswered, hdecoded⟩ := CertData.ofReply_eq_ok.mp (ofChannel_eq_ok.mp hdata)
  exact ⟨keys, t.1, m, checked ▸ .verify hanswered hdecoded hverified, hprogress⟩

/-- What comes out of a handshake with an answer to message 3. -/
theorem resume_message4 {b : Begun S environment endpoint} {arrival : Arrival}
    {o : Opened b arrival} {keys : PublicKeys} {now : UInt64} {g₁ g₂ : ρ}
    {m : o.decision.Accepted S keys now g₁ g₂} {judge : Judge} {s s' : ρ × List Question}
    {progress : Progress} (h : Work.Yields judge (resume S policy a.now
      ⟨b.uri "/", o.request m, .message4 m.awaited o.cid⟩ a.reply) s progress s') :
    ∃ (response : Outer.Response) (message : Message4), a.Answers response ∧
      decodeMessage "M4" 4 response.body = .ok message ∧
      Envelope.decrypt S "message 4" m.keys.confirmToInitiator message.confirmation =
        .ok (S.hash (b.initiator.message1 ++ o.response.body ++ Wire.write m.message3)) ∧
      progress = .established { endpoint := b.uri "/", cid := o.cid, uri := b.uri o.cid }
        (.start .initiator environment m.keys) := by
  simp only [resume] at h
  obtain ⟨response, hresponse, h⟩ := Work.yields_lift_bind.mp h
  obtain ⟨session, hsession, h⟩ := Work.yields_lift_bind.mp h
  obtain ⟨rfl, -⟩ := Work.yields_pure.mp h
  obtain ⟨message, hdecoded, hconfirmed, rfl⟩ :=
    Confirmation.receiveMessage4_eq_ok.mp (ofChannel_eq_ok.mp hsession)
  have hexpected : m.awaited.expected =
      S.hash (b.initiator.message1 ++ o.response.body ++ Wire.write m.message3) := by
    rw [← o.transcript]
    rfl
  have hsession : Session.start .initiator m.awaited.environment m.awaited.keys =
      .start .initiator environment m.keys :=
    congrArg (Session.start .initiator · m.keys) o.environment_eq
  rw [hexpected] at hconfirmed
  rw [hsession]
  exact ⟨response, message, Outer.success_eq_ok.mp hresponse, hdecoded, hconfirmed, rfl⟩

/-- A handshake that goes on with another request was right to. -/
theorem resume_reached (h : Reached S policy environment endpoint as rs e)
    (hresume : ((resume S policy a.now e a.reply).run.run g).under a.judge =
      (.ok (.waiting next), g')) :
    Reached S policy environment endpoint (as ++ [a]) (rs ++ [next.request]) next := by
  obtain ⟨asked, hresume⟩ := Work.yields_of_under hresume
  cases h with
  | message2 b =>
    obtain ⟨o, ⟨store, checked, hnext⟩ | ⟨keys, m, trusted, hnext⟩⟩ := resume_message2 hresume
    · obtain rfl := Progress.waiting.inj hnext
      exact .certificates b o checked
    · obtain rfl := Progress.waiting.inj hnext
      exact .message4 b o trusted m
  | certificates b o checked =>
    obtain ⟨keys, g₁, m, trusted, hnext⟩ := resume_certificates checked hresume
    obtain rfl := Progress.waiting.inj hnext
    exact .message4 b o trusted m
  | message4 b o trusted m =>
    obtain ⟨_, _, -, -, -, hnext⟩ := resume_message4 hresume
    exact nomatch hnext

/-- A handshake that ends with a channel is complete. -/
theorem resume_completed (h : Reached S policy environment endpoint as rs e)
    {connection : Connection} {session : Session}
    (hresume : ((resume S policy a.now e a.reply).run.run g).under a.judge =
      (.ok (.established connection session), g')) :
    Completed S policy environment endpoint (as ++ [a]) rs connection session := by
  obtain ⟨asked, hresume⟩ := Work.yields_of_under hresume
  cases h with
  | message2 b =>
    obtain ⟨o, ⟨store, checked, hnext⟩ | ⟨keys, m, trusted, hnext⟩⟩ := resume_message2 hresume
    · exact nomatch hnext
    · exact nomatch hnext
  | certificates b o checked =>
    obtain ⟨keys, g₁, m, trusted, hnext⟩ := resume_certificates checked hresume
    exact nomatch hnext
  | message4 b o trusted m =>
    obtain ⟨response, message, answered, decoded, confirmed, hnext⟩ := resume_message4 hresume
    obtain ⟨rfl, rfl⟩ := Progress.established.inj hnext
    exact .intro b o trusted m answered decoded confirmed

/-! ### Parts that succeed -/

section Succeeding

variable {scheme : Scheme} {authority : Authority} {request : Outer.Request} {now : UInt64}
  {response : Outer.Response} {judge : Judge} {cid : String} {confirmation : Confirmation}

/-- A handshake starts if keys can be made. -/
theorem start_eq_ok {initiator : Initiator}
    (hroot : destination endpoint = .ok (.onHost scheme authority "/"))
    (hstart : Draw.Yields (Initiator.start S environment) g initiator g') :
    (start S environment endpoint).run g = (.ok {
      endpoint := .onHost scheme authority "/"
      request := post (.onHost scheme authority "/VAU") initiator.message1
      stage := .message2 initiator }, g') := by
  have hpath : IsPath handshakePath := by decide
  have hinitiator : (Drawing.ofDraw (Initiator.start S environment)).run g = (.ok initiator, g') :=
    Prod.ext (congrArg ofChannel hstart.1) hstart.2
  simp only [start]
  refine Drawing.run_bind_eq_ok.mpr ⟨_, g, congrArg (·, g) hroot, ?_⟩
  refine Drawing.run_bind_eq_ok.mpr ⟨initiator, g', hinitiator, ?_⟩
  exact Drawing.run_bind_eq_ok.mpr
    ⟨_, g', congrArg (·, g') (resolve_onHost scheme authority _ hpath), rfl⟩

/-- Message 3 follows message 2 at once if nothing is checked. -/
theorem resume_unchecked {initiator : Initiator} {decision : TrustDecision} {keys : PublicKeys}
    {message3 : Bytes} (hstatus : response.status = 200)
    (hcid : channelId (response.headers.values "vau-cid").head? = .ok cid)
    (hdecision : initiator.receiveMessage2 S response.body = .ok decision)
    (hkeys : decision.signed.publicKeys = .ok keys)
    (haccept : Draw.Yields (decision.accept S keys now) g (confirmation, message3) g') :
    ((resume S .insecure now ⟨.onHost scheme authority "/", request, .message2 initiator⟩
      (.ok response)).run.run g).under judge = (.ok (.waiting {
        endpoint := .onHost scheme authority "/"
        request := post (.onHost scheme authority cid) message3
        stage := .message4 confirmation cid }), g') := by
  refine Work.Yields.under (t := (g', [])) ?_
  simp only [resume]
  refine Work.yields_lift_bind.mpr ⟨response, Outer.success_eq_ok.mpr ⟨rfl, hstatus⟩, ?_⟩
  refine Work.yields_lift_bind.mpr ⟨cid, ofChannel_eq_ok.mpr hcid, ?_⟩
  refine Work.yields_lift_bind.mpr ⟨decision, ofChannel_eq_ok.mpr hdecision, ?_⟩
  refine Work.yields_lift_bind.mpr ⟨keys, ofChannel_eq_ok.mpr hkeys, ?_⟩
  refine Work.yields_bind.mpr ⟨(confirmation, message3), (g', []),
    Work.yields_ofDraw.mpr ⟨haccept, rfl⟩, ?_⟩
  refine Work.yields_lift_bind.mpr ⟨_, resolve_onHost scheme authority _ (.of_channelId hcid), ?_⟩
  exact Work.yields_pure.mpr ⟨rfl, rfl⟩

/-- The channel is there after message 4. -/
theorem resume_confirmed {root : Uri} {session : Session} (hstatus : response.status = 200)
    (hsession : confirmation.receiveMessage4 S response.body = .ok session) :
    ((resume S policy now ⟨root, request, .message4 confirmation cid⟩
      (.ok response)).run.run g).under judge =
        (.ok (.established { endpoint := root, cid, uri := request.uri } session), g) := by
  refine Work.Yields.under (t := (g, [])) ?_
  simp only [resume]
  refine Work.yields_lift_bind.mpr ⟨response, Outer.success_eq_ok.mpr ⟨rfl, hstatus⟩, ?_⟩
  refine Work.yields_lift_bind.mpr ⟨session, ofChannel_eq_ok.mpr hsession, ?_⟩
  exact Work.yields_pure.mpr ⟨rfl, rfl⟩

end Succeeding

/-! ## Whole handshakes -/

/-- The requests of a handshake, and what comes out of it if there are enough replies. -/
structure Course where
  /-- the requests, in order -/
  requests : List Outer.Request
  /-- the channel or the error, if it is over -/
  result : Option (Except ClientError (Connection × Session))

variable (S policy) in
/-- Go on with replies as long as there are any. -/
def follow (e : Establishment) (g : ρ) : List Arrival → Course
  | [] => ⟨[e.request], none⟩
  | a :: arrivals =>
    match ((e.resume S policy a.now a.reply).run.run g).under a.judge with
    | (.ok (.waiting next), g) =>
      let rest := follow next g arrivals
      ⟨e.request :: rest.requests, rest.result⟩
    | (.ok (.established connection session), _) => ⟨[e.request], some (.ok (connection, session))⟩
    | (.error error, _) => ⟨[e.request], some (.error error)⟩

variable (S policy environment endpoint) in
/-- A handshake with the host of an endpoint, given the replies. -/
def perform (g : ρ) (arrivals : List Arrival) : Course :=
  match (start S environment endpoint).run g with
  | (.ok e, g) => e.follow S policy g arrivals
  | (.error error, _) => ⟨[], some (.error error)⟩

/-- A handshake goes on from where it is. -/
theorem follow_reached {arrivals : List Arrival} (h : Reached S policy environment endpoint as
    (rs ++ [e.request]) e) :
    ∃ before e', before <+: arrivals ∧
      Reached S policy environment endpoint (as ++ before)
        (rs ++ (e.follow S policy g arrivals).requests) e' ∧
      ∀ connection session,
        (e.follow S policy g arrivals).result = some (.ok (connection, session)) →
        ∃ a, before ++ [a] <+: arrivals ∧
          Completed S policy environment endpoint (as ++ before ++ [a])
            (rs ++ (e.follow S policy g arrivals).requests) connection session := by
  induction arrivals generalizing as rs e g with
  | nil => exact ⟨[], e, List.nil_prefix, by simpa [follow] using h, nofun⟩
  | cons a arrivals ih =>
    rcases hresume : ((e.resume S policy a.now a.reply).run.run g).under a.judge with
      ⟨error | (next | ⟨connection, session⟩), g₁⟩
    · refine ⟨[], e, List.nil_prefix, ?_, ?_⟩
      · simpa [follow, hresume] using h
      · simp [follow, hresume]
    · obtain ⟨before, e', hbefore, hreached, hcompleted⟩ := ih (g := g₁) (resume_reached h hresume)
      have hrequests : rs ++ (e.follow S policy g (a :: arrivals)).requests =
          rs ++ [e.request] ++ (next.follow S policy g₁ arrivals).requests := by
        simp [follow, hresume]
      have hresult : (e.follow S policy g (a :: arrivals)).result =
          (next.follow S policy g₁ arrivals).result := by
        simp [follow, hresume]
      rw [hrequests, hresult]
      refine ⟨a :: before, e', List.cons_prefix_cons.mpr ⟨rfl, hbefore⟩, by simpa using hreached,
        fun connection session hok => ?_⟩
      obtain ⟨a', ha', hcompleted⟩ := hcompleted connection session hok
      exact ⟨a', List.cons_prefix_cons.mpr ⟨rfl, ha'⟩, by simpa using hcompleted⟩
    · refine ⟨[], e, List.nil_prefix, ?_, ?_⟩
      · simpa [follow, hresume] using h
      · intro connection' session' hok
        simp only [follow, hresume] at hok ⊢
        obtain ⟨rfl, rfl⟩ := Prod.mk.inj (Except.ok.inj (Option.some.inj hok))
        refine ⟨a, List.cons_prefix_cons.mpr ⟨rfl, List.nil_prefix⟩, ?_⟩
        simpa using resume_completed h hresume

variable (S policy environment endpoint) in
/-- A handshake that could not start asks for nothing, and any other is right to ask for what it
does. -/
theorem perform_reached (g : ρ) (arrivals : List Arrival) :
    let course := perform S policy environment endpoint g arrivals
    course.requests = [] ∧ (∃ error, course.result = some (.error error)) ∨
    ∃ before e, before <+: arrivals ∧
      Reached S policy environment endpoint before course.requests e ∧
      ∀ connection session, course.result = some (.ok (connection, session)) →
        ∃ a, before ++ [a] <+: arrivals ∧
          Completed S policy environment endpoint (before ++ [a]) course.requests connection
            session := by
  rcases hstart : (start S environment endpoint).run g with ⟨error | e, g₁⟩
  · simp [perform, hstart]
  · simp only [perform, hstart]
    have hreached : Reached S policy environment endpoint [] ([] ++ [e.request]) e :=
      start_reached hstart
    exact .inr (follow_reached hreached)

end Establishment

end SealedTunnel
