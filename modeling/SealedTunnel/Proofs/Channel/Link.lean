import SealedTunnel.Proofs.Channel.Conversation
import SealedTunnel.Proofs.Channel.Counters

/-!
# A link that delivers

Both ends of a channel, over a network that loses nothing: every frame arrives
once, unchanged and in order, but as late as it likes.

* `Letter`, `End`, `Link`, `Link.run` — both ends with what they sealed and what came of the frames
  they got, through any interleaving of sealing and delivery.
* `Letter.isPrompt`, `Letter.prompt`, `Letter.late` — an answer is prompt if its request was the
  next one to answer; after the first one that is not, all are late.
* `Letter.outcomes` — prompt answers are accepted, late ones are out of sequence.
* `Link.InStep` — the invariant; `Link.InStep.run`.
* `Link.delivered` — requests are accepted in any case, answers as long as they are prompt.
-/

namespace SealedTunnel

/-- A frame under way. -/
structure Letter extends Sealed where
  /-- the session that sealed it, as it was before -/
  sender : Session

/-- One end of a link. -/
structure End where
  /-- the session as it is now -/
  session : Session
  /-- all frames it sealed, oldest first -/
  letters : List Letter
  /-- what came of the frames delivered to it, oldest first -/
  verdicts : List (Except ChannelError Bytes)

/-- The ends of a link. -/
structure Link where
  /-- the end that asks -/
  initiator : End
  /-- the end that answers -/
  responder : End

/-- What happens on a link. -/
inductive Link.Event (ρ : Type) where
  /-- the initiator is asked to seal a payload, with random bytes from a generator state -/
  | ask (g : ρ) (plain : Bytes)
  /-- the next request that is under way arrives, if there is one -/
  | hear
  /-- the responder is asked to seal a payload -/
  | answer (g : ρ) (plain : Bytes)
  /-- the next answer that is under way arrives, if there is one -/
  | learn

namespace End

variable {ρ : Type} (S : Suite ρ)

/-- An end before its first frame. -/
def start (role : Role) (environment : Environment) (keys : SessionKeys) : End where
  session := Session.start role environment keys
  letters := []
  verdicts := []

/-- Seal a payload, if the session can. -/
def encrypt (e : End) (g : ρ) (plain : Bytes) : End :=
  match (Session.encrypt S plain).run (e.session, g) with
  | (.ok frame, session, _) =>
    let accepted := e.verdicts.filterMap Except.toOption
    { e with session, letters := e.letters ++ [{ frame, plain, accepted, sender := e.session }] }
  | (.error _, session, _) => { e with session }

/-- Take a byte string for the next frame. -/
def take (e : End) (wire : Bytes) : End :=
  let (result, session) := (Session.decrypt S wire).run e.session
  { e with session, verdicts := e.verdicts ++ [result] }

end End

namespace Link

variable {ρ : Type} (S : Suite ρ)

/-- Both ends before the first frame. -/
def start (environment : Environment) (keys : SessionKeys) : Link where
  initiator := End.start .initiator environment keys
  responder := End.start .responder environment keys

/-- The next request that arrives. -/
def nextRequest? (l : Link) : Option Letter := l.initiator.letters[l.responder.verdicts.length]?

/-- The next answer that arrives. -/
def nextAnswer? (l : Link) : Option Letter := l.responder.letters[l.initiator.verdicts.length]?

/-- One thing happens. -/
def step (l : Link) : Event ρ → Link
  | .ask g plain => { l with initiator := l.initiator.encrypt S g plain }
  | .hear =>
    match l.nextRequest? with
    | some x => { l with responder := l.responder.take S x.frame.toBytes }
    | none => l
  | .answer g plain => { l with responder := l.responder.encrypt S g plain }
  | .learn =>
    match l.nextAnswer? with
    | some x => { l with initiator := l.initiator.take S x.frame.toBytes }
    | none => l

/-- One thing happens after the other. -/
def run (l : Link) (events : List (Event ρ)) : Link := events.foldl (step S) l

end Link

/-! ## Prompt and late answers -/

namespace Letter

/-- The last request accepted was the one after the last request answered. -/
def isPrompt (x : Letter) : Bool := x.sender.received.toNat == x.sender.sent.toNat + 1

/-- The answers before the first one that left a request out. -/
def prompt (letters : List Letter) : List Letter := letters.takeWhile isPrompt

/-- The answers from the first one on that left a request out. -/
def late (letters : List Letter) : List Letter := letters.dropWhile isPrompt

/-- What comes of answers that are delivered in order. -/
def outcomes (letters : List Letter) : List (Except ChannelError Bytes) :=
  (prompt letters).map (fun x => .ok x.plain) ++ (late letters).map fun x =>
    .error (.counterMismatch (UInt64.ofNat ((prompt letters).length + 1)) x.frame.counter)

variable {letters : List Letter}

theorem prompt_append_late (letters : List Letter) : prompt letters ++ late letters = letters :=
  List.takeWhile_append_dropWhile

/-- Once an answer is late, no other one is prompt. -/
theorem prompt_append_of_late (h : late letters ≠ []) (more : List Letter) :
    prompt (letters ++ more) = prompt letters := by
  refine List.takeWhile_append.trans (if_neg fun hlength => ?_)
  have hsplit := congrArg List.length (prompt_append_late letters)
  have hpos := List.length_pos_iff.mpr h
  rw [List.length_append, prompt, hlength] at hsplit
  omega

theorem late_append_of_late (h : late letters ≠ []) (more : List Letter) :
    late (letters ++ more) = late letters ++ more :=
  List.dropWhile_append.trans (if_neg fun hempty => h (List.isEmpty_iff.mp hempty))

theorem prompt_append (h : late letters = []) (more : List Letter) :
    prompt (letters ++ more) = prompt letters ++ prompt more := by
  have hall : prompt letters = letters := by
    have hsplit := prompt_append_late letters
    rwa [h, List.append_nil] at hsplit
  refine List.takeWhile_append.trans (if_pos (congrArg List.length hall)) |>.trans ?_
  rw [hall]
  rfl

theorem late_append (h : late letters = []) (more : List Letter) :
    late (letters ++ more) = late more :=
  List.dropWhile_append.trans (if_pos (List.isEmpty_iff.mpr h))

/-- What comes of an answer does not depend on the ones after it. -/
theorem outcomes_prefix (letters more : List Letter) :
    outcomes letters <+: outcomes (letters ++ more) := by
  by_cases h : late letters = []
  · simp only [outcomes, prompt_append h, h, List.map_append, List.map_nil, List.append_nil,
      List.append_assoc]
    exact List.prefix_append _ _
  · simp only [outcomes, prompt_append_of_late h, late_append_of_late h, List.map_append]
    rw [← List.append_assoc]
    exact List.prefix_append _ _

theorem length_outcomes (letters : List Letter) : (outcomes letters).length = letters.length := by
  have hsplit := congrArg List.length (prompt_append_late letters)
  rw [List.length_append] at hsplit
  simp only [outcomes, List.length_append, List.length_map, hsplit]

/-- Later answers do not change how many of the first ones are prompt. -/
theorem min_prompt_append {n : Nat} (hn : n ≤ letters.length) (more : List Letter) :
    min n (prompt (letters ++ more)).length = min n (prompt letters).length := by
  by_cases h : late letters = []
  · have hsplit := congrArg List.length (prompt_append_late letters)
    rw [h, List.append_nil] at hsplit
    rw [prompt_append h, List.length_append]
    omega
  · rw [prompt_append_of_late h]

/-- An answer is prompt or late by its place. -/
theorem outcomes_getElem? {n : Nat} {x : Letter} (hx : letters[n]? = some x) :
    ((prompt letters)[n]? = some x ∧ (outcomes letters)[n]? = some (.ok x.plain)) ∨
      ((prompt letters).length ≤ n ∧ x ∈ late letters ∧ (outcomes letters)[n]? = some
        (.error (.counterMismatch (UInt64.ofNat ((prompt letters).length + 1)) x.frame.counter)))
    := by
  rw [← prompt_append_late letters] at hx
  rcases Nat.lt_or_ge n (prompt letters).length with hlt | hge
  · rw [List.getElem?_append_left hlt] at hx
    refine .inl ⟨hx, ?_⟩
    rw [outcomes, List.getElem?_append_left (by rwa [List.length_map]), List.getElem?_map, hx]
    rfl
  · rw [List.getElem?_append_right hge] at hx
    refine .inr ⟨hge, List.mem_of_getElem? hx, ?_⟩
    rw [outcomes, List.getElem?_append_right (by rwa [List.length_map]), List.length_map,
      List.getElem?_map, hx]
    rfl

/-- A letter's place among letters that are numbered from 1 on. -/
theorem counter_eq {n k : Nat} {x : Letter}
    (h : letters.map (·.frame.counter.toNat) = List.range' 1 k) (hx : letters[n]? = some x) :
    x.frame.counter.toNat = n + 1 := by
  have hget := congrArg (·[n]?) h
  have hlt : n < k := by
    have hlength := congrArg List.length h
    rw [List.length_map, List.length_range'] at hlength
    exact hlength ▸ (List.getElem?_eq_some_iff.mp hx).1
  simp only [List.getElem?_map, hx, Option.map_some, List.getElem?_range' hlt,
    Option.some.injEq] at hget
  omega

end Letter

/-! ## What an end does -/

namespace End

variable {ρ : Type} {S : Suite ρ} {e : End}

/-- Sealing succeeds as long as there is a next counter, the key has the right size, and the
primitives serve. -/
theorem encrypt_eq {limit : Nat} (hserves : S.Serves limit) {counter : UInt64}
    (hcounter : e.session.nextOutgoing = .ok counter) (hkey : e.session.sealKey.length = 32) (g : ρ)
    {plain : Bytes} (hlength : plain.length < limit) :
    ∃ x : Letter, x.MadeBy S e.session ∧ x.frame.counter = counter ∧ x.plain = plain ∧
      x.sender = e.session ∧ e.encrypt S g plain = {
        session := { e.session with sent := counter }
        letters := e.letters ++ [x]
        verdicts := e.verdicts } := by
  obtain ⟨s, hmade, hscounter, hplain, haccepted, hyields⟩ := Party.yields_encrypt hserves hcounter
    hkey g hlength (e.verdicts.filterMap Except.toOption)
  refine ⟨{ s with sender := e.session }, hmade, hscounter, hplain, rfl, ?_⟩
  simp only [encrypt]
  rw [hyields.run_eq, ← hplain, ← haccepted]

/-- Otherwise it leaves no trace. -/
theorem encrypt_cases (e : End) (g : ρ) (plain : Bytes) :
    e.encrypt S g plain = e ∨
      ∃ x : Letter, x.MadeBy S e.session ∧ e.session.nextOutgoing = .ok x.frame.counter ∧
        x.plain = plain ∧ x.sender = e.session ∧ e.encrypt S g plain = {
          session := { e.session with sent := x.frame.counter }
          letters := e.letters ++ [x]
          verdicts := e.verdicts } := by
  simp only [encrypt]
  rcases hresult : (Session.encrypt S plain).run (e.session, g) with ⟨error | frame, session, g'⟩
  · obtain rfl : session = e.session := (Session.spares_encrypt S plain).eq hresult
    exact .inl rfl
  · obtain ⟨hmade, hcounter, rfl⟩ := Party.madeBy_of_yields (.of_run hresult)
      (e.verdicts.filterMap Except.toOption)
    exact .inr ⟨{ frame, plain, accepted := _, sender := e.session }, hmade, hcounter, rfl, rfl,
      rfl⟩

/-- Sealing does not touch what was delivered. -/
theorem encrypt_keeps (S : Suite ρ) (e : End) (g : ρ) (plain : Bytes) :
    (e.encrypt S g plain).verdicts = e.verdicts ∧
      (e.encrypt S g plain).session.received = e.session.received ∧
      e.letters <+: (e.encrypt S g plain).letters := by
  rcases encrypt_cases (S := S) e g plain with heq | ⟨x, -, -, -, -, heq⟩
  · rw [heq]
    exact ⟨rfl, rfl, List.prefix_refl _⟩
  · rw [heq]
    exact ⟨rfl, rfl, List.prefix_append _ _⟩

/-- Delivery seals nothing. -/
theorem take_keeps (S : Suite ρ) (e : End) (wire : Bytes) :
    e.letters <+: (e.take S wire).letters ∧ e.verdicts <+: (e.take S wire).verdicts :=
  ⟨List.prefix_refl _, List.prefix_append _ _⟩

theorem length_verdicts_take (S : Suite ρ) (e : End) (wire : Bytes) :
    (e.take S wire).verdicts.length = e.verdicts.length + 1 := List.length_append

/-- A letter that is next in sequence is accepted. -/
theorem take_eq_of_next (hinverts : S.Inverts) (htagged : S.Tagged) {sender : Session}
    {x : Letter} (hmade : x.MadeBy S sender) (hfeeds : sender.Feeds e.session)
    (hplain : x.plain ≠ []) (hnext : x.frame.counter.toNat = e.session.received.toNat + 1)
    (hsent : e.session.role = .initiator → x.frame.counter ≤ e.session.sent) :
    e.take S x.frame.toBytes = {
      session := { e.session with received := x.frame.counter }
      letters := e.letters
      verdicts := e.verdicts ++ [.ok x.plain] } := by
  have hlast : e.session.received ≠ Session.lastCounter := by
    intro heq
    have hlt := x.frame.counter.toNat_lt
    rw [hnext, heq] at hlt
    exact absurd hlt (by decide)
  have hcounter : x.frame.counter = e.session.received + 1 :=
    UInt64.toNat_inj.mp (hnext.trans (Session.toNat_add_one hlast).symm)
  have hdecrypt := hmade.decrypt_eq hinverts htagged hfeeds hplain hlast hcounter hsent
  simp only [take, hdecrypt.run_eq]

/-- A letter with a greater counter is refused. -/
theorem take_eq_of_gap (htagged : S.Tagged) {sender : Session} {x : Letter}
    (hmade : x.MadeBy S sender) (hkeyId : sender.keyId.length = 32) (hplain : x.plain ≠ [])
    (hgap : e.session.received.toNat + 1 < x.frame.counter.toNat) :
    e.take S x.frame.toBytes = { e with
      verdicts := e.verdicts ++ [.error (.counterMismatch
        (UInt64.ofNat (e.session.received.toNat + 1)) x.frame.counter)] } := by
  have hlt := x.frame.counter.toNat_lt
  have hlast : e.session.received ≠ Session.lastCounter := by
    intro heq
    have hvalue : e.session.received.toNat = 0xffffffffffffffff := by rw [heq]; rfl
    omega
  have hnext : e.session.received + 1 = UInt64.ofNat (e.session.received.toNat + 1) := by
    rw [← Session.toNat_add_one hlast, UInt64.ofNat_toNat]
  have hne : x.frame.counter ≠ e.session.received + 1 := by
    intro heq
    rw [heq, Session.toNat_add_one hlast] at hgap
    omega
  have hdecrypt := Session.decrypt_of_ne (S := S) (hmade.parse_eq htagged hkeyId hplain) hlast hne
  simp only [take, hdecrypt, hnext]

/-! ## What an end keeps to -/

/-- An end keeps its role and keys, and seals with these whatever is not empty. -/
structure Honest (S : Suite ρ) (session : Session) (e : End) : Prop where
  /-- only the counters change -/
  reset : e.session.reset = session
  /-- every letter was made with the session's keys -/
  made : ∀ x ∈ e.letters, x.MadeBy S session
  /-- no letter is empty -/
  filled : ∀ x ∈ e.letters, x.plain ≠ []

theorem start_honest (role : Role) (environment : Environment) (keys : SessionKeys) :
    Honest S (Session.start role environment keys) (start role environment keys) where
  reset := rfl
  made := fun _ hx => nomatch hx
  filled := fun _ hx => nomatch hx

theorem Honest.encrypt {session : Session} (he : Honest S session e) (g : ρ) {plain : Bytes}
    (hplain : plain ≠ []) : Honest S session (e.encrypt S g plain) := by
  rcases encrypt_cases (S := S) e g plain with heq | ⟨x, hmade, -, hxplain, -, heq⟩
  · rwa [heq]
  rw [heq]
  obtain rfl := he.reset
  refine ⟨rfl, fun y hy => ?_, fun y hy => ?_⟩
  · rcases List.mem_append.mp hy with hy | hy
    · exact he.made y hy
    · obtain rfl := List.mem_singleton.mp hy
      exact hmade
  · rcases List.mem_append.mp hy with hy | hy
    · exact he.filled y hy
    · obtain rfl := List.mem_singleton.mp hy
      rwa [hxplain]

theorem Honest.take {session : Session} (he : Honest S session e) (wire : Bytes) :
    Honest S session (e.take S wire) := by
  refine ⟨?_, he.made, he.filled⟩
  show ((Session.decrypt S wire).run e.session).2.reset = session
  rcases hresult : (Session.decrypt S wire).run e.session with ⟨error | plain, session'⟩
  · obtain rfl : session' = e.session := (Session.spares_decrypt S wire).eq hresult
    exact he.reset
  · obtain ⟨-, hsession⟩ := Session.decrypt_changes (.of_run hresult)
    rw [hsession]
    exact he.reset

/-- What one end seals the other one opens. -/
theorem Honest.feeds {who : Role} {environment : Environment} {keys : SessionKeys}
    (he : Honest S (Session.start who environment keys) e) (hkeyId : keys.keyId.length = 32) :
    (Session.start who.peer environment keys).Feeds e.session := by
  have hreset := he.reset
  have hrole := congrArg Session.role hreset
  have hid := congrArg Session.keyId hreset
  have hopen := congrArg Session.openKey hreset
  have henvironment := congrArg Session.environment hreset
  refine ⟨hrole.trans (Role.peer_peer who).symm, henvironment, ⟨hid, hkeyId⟩, hopen.trans ?_⟩
  cases who <;> rfl

theorem Honest.role_eq {session : Session} (he : Honest S session e) :
    e.session.role = session.role := by
  rw [← he.reset]
  rfl

/-! ## The numbers of requests and answers -/

/-- Requests are numbered from 1 on. -/
def Numbered (e : End) : Prop :=
  e.letters.map (·.frame.counter.toNat) = List.range' 1 e.session.sent.toNat

theorem Numbered.length_eq (he : Numbered e) : e.letters.length = e.session.sent.toNat := by
  have hlength := congrArg List.length he
  rwa [List.length_map, List.length_range'] at hlength

theorem Numbered.encrypt (he : Numbered e) (hrole : e.session.role = .initiator) (g : ρ)
    (plain : Bytes) : Numbered (e.encrypt S g plain) := by
  rcases encrypt_cases (S := S) e g plain with heq | ⟨x, -, hnext, -, -, heq⟩
  · rwa [heq]
  rw [heq]
  rcases Session.nextOutgoing_eq_ok.mp hnext with ⟨-, hlast, hcounter⟩ | ⟨hresponder, -⟩
  · have hvalue : x.frame.counter.toNat = e.session.sent.toNat + 1 :=
      hcounter ▸ Session.toNat_add_one hlast
    simp only [Numbered, List.map_append, hvalue, List.range'_1_concat, Nat.add_comm 1,
      List.map_cons, List.map_nil]
    rw [show e.letters.map (·.frame.counter.toNat) = _ from he]
  · exact nomatch hrole.symm.trans hresponder

/-- Prompt answers are numbered from 1 on; late ones have greater numbers than the next one. -/
structure Answered (e : End) : Prop where
  /-- prompt answers are numbered without gaps -/
  prompt : (Letter.prompt e.letters).map (·.frame.counter.toNat) =
    List.range' 1 (Letter.prompt e.letters).length
  /-- late ones come after a gap -/
  late : ∀ x ∈ Letter.late e.letters,
    (Letter.prompt e.letters).length + 1 < x.frame.counter.toNat
  /-- no answer comes before its request -/
  asked : ∀ x ∈ e.letters, x.frame.counter ≤ e.session.received
  /-- what is not prompt left a request out -/
  skipped : ∀ x ∈ e.letters, x.isPrompt = false →
    x.sender.sent.toNat + 1 < x.sender.received.toNat
  /-- as long as all are prompt, the session counts them -/
  inStep : Letter.late e.letters = [] →
    e.session.sent.toNat = (Letter.prompt e.letters).length
  /-- and then it is ahead for good -/
  ahead : Letter.late e.letters ≠ [] →
    (Letter.prompt e.letters).length + 1 < e.session.sent.toNat

theorem start_answered (environment : Environment) (keys : SessionKeys) :
    Answered (start .responder environment keys) where
  prompt := rfl
  late := fun _ hx => nomatch hx
  asked := fun _ hx => nomatch hx
  skipped := fun _ hx => nomatch hx
  inStep := fun _ => rfl
  ahead := fun h => absurd rfl h

theorem Answered.encrypt (he : Answered e) (hrole : e.session.role = .responder) (g : ρ)
    (plain : Bytes) : Answered (e.encrypt S g plain) := by
  rcases encrypt_cases (S := S) e g plain with heq | ⟨x, -, hnext, -, hsender, heq⟩
  · rwa [heq]
  rw [heq]
  obtain ⟨hlt, hcounter⟩ : e.session.sent < e.session.received ∧
      x.frame.counter = e.session.received := by
    rcases Session.nextOutgoing_eq_ok.mp hnext with ⟨hinitiator, -⟩ | ⟨-, hlt, hcounter⟩
    · exact nomatch hrole.symm.trans hinitiator
    · exact ⟨hlt, hcounter⟩
  rw [UInt64.lt_iff_toNat_lt] at hlt
  have hasked : ∀ y ∈ e.letters ++ [x], y.frame.counter ≤ e.session.received := by
    intro y hy
    rcases List.mem_append.mp hy with hy | hy
    · exact he.asked y hy
    · obtain rfl := List.mem_singleton.mp hy
      exact UInt64.le_of_eq hcounter
  have hskipped : ∀ y ∈ e.letters ++ [x], y.isPrompt = false →
      y.sender.sent.toNat + 1 < y.sender.received.toNat := by
    intro y hy hlate
    rcases List.mem_append.mp hy with hy | hy
    · exact he.skipped y hy hlate
    · obtain rfl := List.mem_singleton.mp hy
      have hne := of_decide_eq_false hlate
      rw [hsender] at hne ⊢
      omega
  rw [← hcounter] at hlt
  -- the answer is the first late one, or follows one, or is prompt like all before it
  by_cases hlate : Letter.late e.letters = []
  · have hstep := he.inStep hlate
    have hprompt := Letter.prompt_append hlate [x]
    have hrest := Letter.late_append hlate [x]
    cases hx : x.isPrompt with
    | true =>
      have hvalue : x.frame.counter.toNat = (Letter.prompt e.letters).length + 1 := by
        rw [← hstep, hcounter, ← hsender]
        exact of_decide_eq_true hx
      rw [show Letter.prompt [x] = [x] by simp [Letter.prompt, hx]] at hprompt
      rw [show Letter.late [x] = [] by simp [Letter.late, hx]] at hrest
      refine ⟨?_, ?_, hasked, hskipped, fun _ => ?_, fun h => absurd hrest h⟩ <;>
        simp only [hprompt, hrest, List.length_append, List.length_singleton]
      · rw [List.map_append, he.prompt, List.range'_1_concat, Nat.add_comm 1]
        exact congrArg (_ ++ [·]) hvalue
      · exact fun y hy => nomatch hy
      · exact hvalue
    | false =>
      have hgap : (Letter.prompt e.letters).length + 1 < x.frame.counter.toNat := by
        have hne : x.frame.counter.toNat ≠ e.session.sent.toNat + 1 := by
          rw [hcounter, ← hsender]
          exact of_decide_eq_false hx
        omega
      rw [show Letter.prompt [x] = [] by simp [Letter.prompt, hx], List.append_nil] at hprompt
      rw [show Letter.late [x] = [x] by simp [Letter.late, hx]] at hrest
      refine ⟨?_, ?_, hasked, hskipped, fun h => ?_, fun _ => ?_⟩ <;> simp only [hprompt]
      · exact he.prompt
      · rw [hrest]
        intro y hy
        obtain rfl := List.mem_singleton.mp hy
        exact hgap
      · exact nomatch hrest.symm.trans h
      · exact hgap
  · have hahead := he.ahead hlate
    have hprompt := Letter.prompt_append_of_late hlate [x]
    have hrest := Letter.late_append_of_late hlate [x]
    refine ⟨?_, ?_, hasked, hskipped, fun h => ?_, fun _ => ?_⟩ <;> simp only [hprompt]
    · exact he.prompt
    · rw [hrest]
      intro y hy
      rcases List.mem_append.mp hy with hy | hy
      · exact he.late y hy
      · obtain rfl := List.mem_singleton.mp hy
        exact Nat.lt_trans hahead hlt
    · exact absurd (hrest.symm.trans h) (by simp)
    · exact Nat.lt_trans hahead hlt

end End

/-! ## The invariant -/

namespace Link

variable {ρ : Type} {S : Suite ρ} {environment : Environment} {keys : SessionKeys} {l : Link}

/-- Requests are accepted one after the other, and so are answers up to the first late one. -/
structure InStep (S : Suite ρ) (environment : Environment) (keys : SessionKeys) (l : Link) :
    Prop where
  /-- the initiator keeps its role and keys -/
  asker : l.initiator.Honest S (Session.start .initiator environment keys)
  /-- and so does the responder -/
  answerer : l.responder.Honest S (Session.start .responder environment keys)
  /-- requests are numbered from 1 on -/
  numbered : l.initiator.Numbered
  /-- they are accepted -/
  heard : l.responder.verdicts <+: l.initiator.letters.map fun x => .ok x.plain
  /-- and counted -/
  counted : l.responder.session.received.toNat = l.responder.verdicts.length
  /-- prompt answers are numbered like requests, late ones come after a gap -/
  answered : l.responder.Answered
  /-- they are accepted or refused accordingly -/
  learnt : l.initiator.verdicts <+: Letter.outcomes l.responder.letters
  /-- those that are accepted are counted -/
  kept : l.initiator.session.received.toNat =
    min l.initiator.verdicts.length (Letter.prompt l.responder.letters).length

theorem start_inStep (environment : Environment) (keys : SessionKeys) :
    InStep S environment keys (start environment keys) where
  asker := End.start_honest .initiator environment keys
  answerer := End.start_honest .responder environment keys
  numbered := rfl
  heard := List.prefix_refl _
  counted := rfl
  answered := End.start_answered environment keys
  learnt := List.prefix_refl _
  kept := rfl

/-- No answer comes before its request. -/
theorem InStep.asked (hl : InStep S environment keys l) {x : Letter}
    (hx : x ∈ l.responder.letters) : x.frame.counter ≤ l.initiator.session.sent := by
  have hanswer := UInt64.le_iff_toNat_le.mp (hl.answered.asked x hx)
  have hheard := hl.heard.length_le
  rw [List.length_map, hl.numbered.length_eq] at hheard
  rw [hl.counted] at hanswer
  exact UInt64.le_iff_toNat_le.mpr (Nat.le_trans hanswer hheard)

theorem InStep.ask (hl : InStep S environment keys l) (g : ρ) {plain : Bytes}
    (hplain : plain ≠ []) : InStep S environment keys (step S l (.ask g plain)) := by
  obtain ⟨hverdicts, hreceived, hletters⟩ := End.encrypt_keeps S l.initiator g plain
  refine ⟨hl.asker.encrypt g hplain, hl.answerer, hl.numbered.encrypt hl.asker.role_eq g plain, ?_,
    hl.counted, hl.answered, ?_, ?_⟩
  case refine_1 => exact hl.heard.trans (hletters.map _)
  case refine_2 => exact hverdicts ▸ hl.learnt
  case refine_3 =>
    simp only [step, hreceived, hverdicts]
    exact hl.kept

theorem InStep.answer (hl : InStep S environment keys l) (g : ρ) {plain : Bytes}
    (hplain : plain ≠ []) : InStep S environment keys (step S l (.answer g plain)) := by
  obtain ⟨hverdicts, hreceived, more, hletters⟩ := End.encrypt_keeps S l.responder g plain
  refine ⟨hl.asker, hl.answerer.encrypt g hplain, hl.numbered, ?_, ?_,
    hl.answered.encrypt hl.answerer.role_eq g plain, ?_, ?_⟩
  case refine_1 => exact hverdicts ▸ hl.heard
  case refine_2 =>
    simp only [step, hreceived, hverdicts]
    exact hl.counted
  case refine_3 =>
    simp only [step, ← hletters]
    exact hl.learnt.trans (Letter.outcomes_prefix _ _)
  case refine_4 =>
    have hlength := hl.learnt.length_le
    rw [Letter.length_outcomes] at hlength
    simp only [step, ← hletters, Letter.min_prompt_append hlength]
    exact hl.kept

/-- A request that arrives is accepted. -/
theorem InStep.take_request (hl : InStep S environment keys l) (hinverts : S.Inverts)
    (htagged : S.Tagged) (hkeyId : keys.keyId.length = 32) {x : Letter}
    (hnext : l.nextRequest? = some x) :
    x.frame.counter.toNat = l.responder.session.received.toNat + 1 ∧
      l.responder.take S x.frame.toBytes = {
        session := { l.responder.session with received := x.frame.counter }
        letters := l.responder.letters
        verdicts := l.responder.verdicts ++ [.ok x.plain] } := by
  have hx := List.mem_of_getElem? hnext
  have hcounter := Letter.counter_eq hl.numbered hnext
  rw [← hl.counted] at hcounter
  refine ⟨hcounter, End.take_eq_of_next hinverts htagged (hl.asker.made x hx)
    (hl.answerer.feeds hkeyId) (hl.asker.filled x hx) hcounter fun hrole => ?_⟩
  exact nomatch hrole.symm.trans hl.answerer.role_eq

theorem InStep.hear (hl : InStep S environment keys l) (hinverts : S.Inverts)
    (htagged : S.Tagged) (hkeyId : keys.keyId.length = 32) :
    InStep S environment keys (step S l .hear) := by
  simp only [step]
  cases hnext : l.nextRequest? with
  | none => exact hl
  | some x =>
    have hhonest := hl.answerer.take x.frame.toBytes
    obtain ⟨hcounter, htake⟩ := hl.take_request hinverts htagged hkeyId hnext
    rw [htake] at hhonest
    simp only [htake]
    refine ⟨hl.asker, hhonest, hl.numbered, ?_, ?_, ?_, hl.learnt, hl.kept⟩
    case refine_1 =>
      refine Conversation.prefix_concat hl.heard (List.getElem?_map.trans ?_)
      exact congrArg (Option.map _) hnext
    case refine_2 => rw [hcounter, hl.counted, List.length_append, List.length_singleton]
    case refine_3 =>
      have hreceived : l.responder.session.received ≤ x.frame.counter := by
        rw [UInt64.le_iff_toNat_le]
        omega
      have ha := hl.answered
      exact ⟨ha.prompt, ha.late, fun y hy => UInt64.le_trans (ha.asked y hy) hreceived, ha.skipped,
        ha.inStep, ha.ahead⟩

theorem InStep.learn (hl : InStep S environment keys l) (hinverts : S.Inverts)
    (htagged : S.Tagged) (hkeyId : keys.keyId.length = 32) :
    InStep S environment keys (step S l .learn) := by
  simp only [step]
  cases hnext : l.nextAnswer? with
  | none => exact hl
  | some x =>
  dsimp only
  have hhonest := hl.asker.take x.frame.toBytes
  have hx := List.mem_of_getElem? hnext
  have hmade := hl.answerer.made x hx
  have hplain := hl.answerer.filled x hx
  have hkept := hl.kept
  rcases Letter.outcomes_getElem? hnext with ⟨hprompt, houtcome⟩ | ⟨hlength, hlate, houtcome⟩
  · -- all answers before were prompt, so all of them were accepted
    have hlt := (List.getElem?_eq_some_iff.mp hprompt).1
    have hcounter := Letter.counter_eq hl.answered.prompt hprompt
    rw [Nat.min_eq_left (Nat.le_of_lt hlt)] at hkept
    rw [← hkept] at hcounter
    have htake := End.take_eq_of_next hinverts htagged hmade (hl.asker.feeds hkeyId) hplain
      hcounter (fun _ => hl.asked hx)
    rw [htake] at hhonest ⊢
    refine ⟨hhonest, hl.answerer, hl.numbered, hl.heard, hl.counted, hl.answered, ?_, ?_⟩
    case refine_1 => exact Conversation.prefix_concat hl.learnt houtcome
    case refine_2 =>
      simp only [hcounter, hkept, List.length_append, List.length_singleton]
      omega
  · -- exactly the prompt ones were accepted, and there is a gap after them
    have hgap := hl.answered.late x hlate
    rw [Nat.min_eq_right hlength] at hkept
    rw [← hkept] at hgap
    have htake := End.take_eq_of_gap htagged hmade hkeyId hplain hgap
    rw [htake] at hhonest ⊢
    refine ⟨hhonest, hl.answerer, hl.numbered, hl.heard, hl.counted, hl.answered, ?_, ?_⟩
    case refine_1 =>
      refine Conversation.prefix_concat hl.learnt ?_
      rw [hkept]
      exact houtcome
    case refine_2 =>
      simp only [hkept, List.length_append, List.length_singleton]
      omega

/-- Nothing empty is sealed. -/
def Event.Filled : Event ρ → Prop
  | .ask _ plain => plain ≠ []
  | .hear => True
  | .answer _ plain => plain ≠ []
  | .learn => True

theorem InStep.step (hl : InStep S environment keys l) (hinverts : S.Inverts)
    (htagged : S.Tagged) (hkeyId : keys.keyId.length = 32) {event : Event ρ}
    (hfilled : event.Filled) : InStep S environment keys (step S l event) := by
  cases event with
  | ask g plain => exact hl.ask g hfilled
  | hear => exact hl.hear hinverts htagged hkeyId
  | answer g plain => exact hl.answer g hfilled
  | learn => exact hl.learn hinverts htagged hkeyId

/-- Whatever happens, in any order, the link stays in step. -/
theorem InStep.run (hl : InStep S environment keys l) (hinverts : S.Inverts) (htagged : S.Tagged)
    (hkeyId : keys.keyId.length = 32) {events : List (Event ρ)}
    (hfilled : ∀ event ∈ events, event.Filled) :
    InStep S environment keys (run S l events) := by
  induction events generalizing l with
  | nil => exact hl
  | cons event events ih =>
    obtain ⟨hevent, hevents⟩ := List.forall_mem_cons.mp hfilled
    exact ih (hl.step hinverts htagged hkeyId hevent) hevents

/-! ## What is not forgotten -/

/-- Answers stay, and so does what came of them. -/
theorem prefix_step (S : Suite ρ) (l : Link) (event : Event ρ) :
    l.responder.letters <+: (step S l event).responder.letters ∧
      l.initiator.verdicts <+: (step S l event).initiator.verdicts := by
  cases event with
  | ask g plain =>
    obtain ⟨hverdicts, -, -⟩ := End.encrypt_keeps S l.initiator g plain
    exact ⟨List.prefix_refl _, hverdicts ▸ List.prefix_refl _⟩
  | hear =>
    simp only [step]
    cases l.nextRequest? with
    | none => exact ⟨List.prefix_refl _, List.prefix_refl _⟩
    | some x => exact ⟨(End.take_keeps S l.responder x.frame.toBytes).1, List.prefix_refl _⟩
  | answer g plain =>
    obtain ⟨-, -, hletters⟩ := End.encrypt_keeps S l.responder g plain
    exact ⟨hletters, List.prefix_refl _⟩
  | learn =>
    simp only [step]
    cases l.nextAnswer? with
    | none => exact ⟨List.prefix_refl _, List.prefix_refl _⟩
    | some x => exact ⟨List.prefix_refl _, (End.take_keeps S l.initiator x.frame.toBytes).2⟩

theorem prefix_run (S : Suite ρ) (l : Link) (events : List (Event ρ)) :
    l.responder.letters <+: (run S l events).responder.letters ∧
      l.initiator.verdicts <+: (run S l events).initiator.verdicts := by
  induction events generalizing l with
  | nil => exact ⟨List.prefix_refl _, List.prefix_refl _⟩
  | cons event events ih =>
    obtain ⟨hletters, hverdicts⟩ := prefix_step S l event
    obtain ⟨hletters', hverdicts'⟩ := ih (Link.step S l event)
    exact ⟨hletters.trans hletters', hverdicts.trans hverdicts'⟩

/-! ## What holds after a run -/

/-- A request can be sealed as long as there were fewer than `2 ^ 64 - 1`. -/
theorem InStep.seals (hl : InStep S environment keys l) (hkey : keys.requests.length = 32)
    (hfew : l.initiator.letters.length < 2 ^ 64 - 1) (g : ρ) {plain : Bytes}
    (hserves : S.Serves (plain.length + 1)) :
    ∃ x : Letter, x.plain = plain ∧
      (Link.step S l (.ask g plain)).initiator.letters = l.initiator.letters ++ [x] := by
  have hlast : l.initiator.session.sent ≠ Session.lastCounter := by
    intro heq
    rw [hl.numbered.length_eq, heq] at hfew
    exact absurd hfew (by decide)
  have hcounter := Session.nextOutgoing_eq_ok.mpr (.inl ⟨hl.asker.role_eq, hlast, rfl⟩)
  have hseal : l.initiator.session.sealKey.length = 32 := by
    have hkeys := congrArg Session.sealKey hl.asker.reset
    exact (congrArg List.length hkeys).trans hkey
  obtain ⟨x, -, -, hplain, -, heq⟩ :=
    End.encrypt_eq hserves hcounter hseal g (Nat.lt_succ_self plain.length)
  exact ⟨x, hplain, congrArg End.letters heq⟩

/-- Over a link that delivers, every request can be sealed and is accepted with its payload. So is
every answer as long as answers are prompt. The first late answer and all after it are out of
sequence, and once the prompt ones before it are delivered the initiator's counter stays. -/
theorem delivered (hinverts : S.Inverts) (htagged : S.Tagged) (environment : Environment)
    {keys : SessionKeys} (hkeyId : keys.keyId.length = 32) {events : List (Event ρ)}
    (hfilled : ∀ event ∈ events, event.Filled) :
    let l := run S (start environment keys) events
    let prompt := Letter.prompt l.responder.letters
    let late := Letter.late l.responder.letters
    (keys.requests.length = 32 → l.initiator.letters.length < 2 ^ 64 - 1 → ∀ g plain,
      S.Serves (plain.length + 1) → ∃ x : Letter, x.plain = plain ∧
        (step S l (.ask g plain)).initiator.letters = l.initiator.letters ++ [x]) ∧
    l.responder.verdicts <+: l.initiator.letters.map (fun x => .ok x.plain) ∧
    l.initiator.verdicts <+: prompt.map (fun x => .ok x.plain) ++ late.map (fun x =>
      .error (.counterMismatch (UInt64.ofNat (prompt.length + 1)) x.frame.counter)) ∧
    (∀ x ∈ l.responder.letters, x.isPrompt ∨
      x.sender.sent.toNat + 1 < x.sender.received.toNat) ∧
    (late ≠ [] → ∀ more : List (Event ρ), (∀ event ∈ more, event.Filled) →
      let l' := run S l more
      Letter.prompt l'.responder.letters = prompt ∧
      l'.initiator.session.received.toNat = min l'.initiator.verdicts.length prompt.length ∧
      (prompt.length ≤ l.initiator.verdicts.length →
        l'.initiator.session.received = l.initiator.session.received)) := by
  intro l prompt late
  have hl : InStep S environment keys l :=
    (start_inStep environment keys).run hinverts htagged hkeyId hfilled
  refine ⟨fun hkey hfew g plain hserves => hl.seals hkey hfew g hserves, hl.heard, hl.learnt,
    fun x hx => ?_, fun hlate more hmore => ?_⟩
  · exact (Bool.eq_false_or_eq_true x.isPrompt).imp_right (hl.answered.skipped x hx)
  intro l'
  have hl' : InStep S environment keys l' := hl.run hinverts htagged hkeyId hmore
  obtain ⟨⟨answers, hanswers⟩, hverdicts⟩ := prefix_run S l more
  have hprompt : Letter.prompt l'.responder.letters = prompt :=
    (congrArg Letter.prompt hanswers.symm).trans (Letter.prompt_append_of_late hlate answers)
  have hkept := hl'.kept
  rw [hprompt] at hkept
  refine ⟨hprompt, hkept, fun hdone => ?_⟩
  rw [← UInt64.toNat_inj, hkept, hl.kept, Nat.min_eq_right hdone,
    Nat.min_eq_right (Nat.le_trans hdone hverdicts.length_le)]

/-! ## A pipeline -/

/-- How far a link has come on which no answer has been delivered yet. -/
structure Standing (S : Suite ρ) (environment : Environment) (keys : SessionKeys) (l : Link)
    (asked : Nat) (answers : List Letter) (answered heard : Nat) : Prop where
  /-- it is in step -/
  inStep : InStep S environment keys l
  /-- so many requests were sealed -/
  asked : l.initiator.letters.length = asked
  /-- nothing came back -/
  unlearnt : l.initiator.verdicts = []
  /-- these answers were sealed -/
  answers : l.responder.letters = answers
  /-- the last one for this request -/
  answered : l.responder.session.sent.toNat = answered
  /-- so many requests were delivered -/
  heard : l.responder.verdicts.length = heard

variable {asked answered heard : Nat} {answers : List Letter}

theorem start_standing (environment : Environment) (keys : SessionKeys) :
    Standing S environment keys (start environment keys) 0 [] 0 0 :=
  ⟨start_inStep environment keys, rfl, rfl, rfl, rfl, rfl⟩

theorem Standing.ask (hl : Standing S environment keys l asked answers answered heard)
    (hkey : keys.requests.length = 32) (hfew : asked < 2 ^ 64 - 1) (g : ρ) {plain : Bytes}
    (hserves : S.Serves (plain.length + 1)) (hplain : plain ≠ []) :
    Standing S environment keys (Link.step S l (.ask g plain)) (asked + 1) answers answered
      heard := by
  obtain ⟨x, -, heq⟩ := hl.inStep.seals hkey (hl.asked ▸ hfew) g hserves
  obtain ⟨hverdicts, -, -⟩ := End.encrypt_keeps S l.initiator g plain
  refine ⟨hl.inStep.ask g hplain, ?_, hverdicts.trans hl.unlearnt, hl.answers, hl.answered,
    hl.heard⟩
  rw [heq, List.length_append, hl.asked, List.length_singleton]

theorem Standing.hear (hl : Standing S environment keys l asked answers answered heard)
    (hinverts : S.Inverts) (htagged : S.Tagged) (hkeyId : keys.keyId.length = 32)
    (hlt : heard < asked) :
    Standing S environment keys (Link.step S l .hear) asked answers answered (heard + 1) := by
  have hinStep := hl.inStep.hear hinverts htagged hkeyId
  rw [← hl.heard, ← hl.asked] at hlt
  have hnext := List.getElem?_eq_getElem hlt
  obtain ⟨-, htake⟩ := hl.inStep.take_request hinverts htagged hkeyId hnext
  simp only [Link.step, nextRequest?, hnext, htake] at hinStep ⊢
  refine ⟨hinStep, hl.asked, hl.unlearnt, hl.answers, hl.answered, ?_⟩
  simp only [List.length_append, List.length_singleton, hl.heard]

theorem Standing.answer (hl : Standing S environment keys l asked answers answered heard)
    (hkey : keys.responses.length = 32) (hlt : answered < heard) (g : ρ) {plain : Bytes}
    (hserves : S.Serves (plain.length + 1)) (hplain : plain ≠ []) :
    ∃ x : Letter, x.isPrompt = decide (heard = answered + 1) ∧
      Standing S environment keys (Link.step S l (.answer g plain)) asked (answers ++ [x]) heard
        heard := by
  have hheard := hl.inStep.counted.trans hl.heard
  have hbehind : l.responder.session.sent < l.responder.session.received := by
    rwa [UInt64.lt_iff_toNat_lt, hheard, hl.answered]
  have hcounter := Session.nextOutgoing_eq_ok.mpr
    (.inr ⟨hl.inStep.answerer.role_eq, hbehind, rfl⟩)
  have hseal : l.responder.session.sealKey.length = 32 := by
    have hkeys := congrArg Session.sealKey hl.inStep.answerer.reset
    exact (congrArg List.length hkeys).trans hkey
  obtain ⟨x, -, -, -, hsender, heq⟩ :=
    End.encrypt_eq hserves hcounter hseal g (Nat.lt_succ_self plain.length)
  have hinStep := hl.inStep.answer g hplain
  simp only [Link.step, heq] at hinStep ⊢
  refine ⟨x, ?_, hinStep, hl.asked, hl.unlearnt, congrArg (· ++ [x]) hl.answers, hheard, hl.heard⟩
  rw [Letter.isPrompt, hsender, hheard, hl.answered]
  rfl

/-- The first answer that is delivered is accepted if it is prompt. -/
theorem Standing.received_learn (hl : Standing S environment keys l asked answers answered heard)
    (hinverts : S.Inverts) (htagged : S.Tagged) (hkeyId : keys.keyId.length = 32)
    (hne : answers ≠ []) : (Link.step S l .learn).initiator.session.received.toNat =
      min 1 (Letter.prompt answers).length := by
  obtain ⟨x, rest, rfl⟩ := List.exists_cons_of_ne_nil hne
  have hkept := (hl.inStep.learn hinverts htagged hkeyId).kept
  have hnext : l.nextAnswer? = some x := by
    simp only [nextAnswer?, hl.unlearnt, hl.answers]
    rfl
  have hlength := End.length_verdicts_take S l.initiator x.frame.toBytes
  simp only [Link.step, hnext, hlength, hl.unlearnt, hl.answers] at hkept ⊢
  exact hkept

/-- Three requests are sealed before the first one is delivered. It is answered, then the other two
are delivered and only the last one is answered. -/
def pipelined (g : ρ) : List (Event ρ) :=
  [.ask g [1], .ask g [2], .ask g [3], .hear, .answer g [4], .hear, .hear, .answer g [5]]

theorem pipelined_filled (g : ρ) : ∀ event ∈ pipelined g, event.Filled := by
  simp [pipelined, Event.Filled]

/-- The first answer is prompt and the second one is late, and both are still under way. -/
theorem run_pipelined (g : Generator) : ∃ answers : List Letter,
    (Letter.prompt answers).length = 1 ∧ Letter.late answers ≠ [] ∧
      Standing Suite.standard .testing SessionKeys.sample
        (run Suite.standard (start .testing SessionKeys.sample) (pipelined g)) 3 answers 3 3 := by
  have hinverts := Suite.standard_inverts
  have htagged := Suite.standard_tagged
  have hserves {plain : Bytes} := Suite.standard_serves (plain.length + 1)
  have h₀ := start_standing (S := Suite.standard) .testing SessionKeys.sample
  have hfilled : ∀ n : UInt8, [n] ≠ [] := fun n => List.cons_ne_nil n []
  have h₁ := h₀.ask rfl (by decide) g hserves (hfilled 1)
  have h₂ := h₁.ask rfl (by decide) g hserves (hfilled 2)
  have h₃ := h₂.ask rfl (by decide) g hserves (hfilled 3)
  have h₄ := h₃.hear hinverts htagged rfl (by decide)
  obtain ⟨x, hx, h₅⟩ := h₄.answer rfl (by decide) g hserves (hfilled 4)
  have h₆ := h₅.hear hinverts htagged rfl (by decide)
  have h₇ := h₆.hear hinverts htagged rfl (by decide)
  obtain ⟨y, hy, h₈⟩ := h₇.answer rfl (by decide) g hserves (hfilled 5)
  refine ⟨[x, y], ?_, ?_, h₈⟩
  · simp [Letter.prompt, hx, hy]
  · simp [Letter.late, hx, hy]

/-- With the real primitives, a late answer ends it after the one before. -/
theorem delivered_pipelined :
    let l := run Suite.standard (start .testing SessionKeys.sample)
      (pipelined (Generator.ofSeed 7))
    Suite.standard.Inverts ∧ Suite.standard.Tagged ∧ SessionKeys.sample.keyId.length = 32 ∧
      (∀ event ∈ pipelined (Generator.ofSeed 7), event.Filled) ∧
      Letter.late l.responder.letters ≠ [] ∧
      ∀ more : List (Event Generator), (∀ event ∈ more, event.Filled) →
        (run Suite.standard l more).initiator.session.received.toNat =
          min (run Suite.standard l more).initiator.verdicts.length 1 := by
  intro l
  have hinverts := Suite.standard_inverts
  have htagged := Suite.standard_tagged
  have hfilled := pipelined_filled (Generator.ofSeed 7)
  obtain ⟨answers, hprompt, hlate, hl⟩ := run_pipelined (Generator.ofSeed 7)
  rw [← hl.answers] at hprompt hlate
  obtain ⟨-, -, -, -, hend⟩ :=
    delivered hinverts htagged .testing (rfl : SessionKeys.sample.keyId.length = 32) hfilled
  refine ⟨hinverts, htagged, rfl, hfilled, hlate, fun more hmore => ?_⟩
  obtain ⟨-, hreceived, -⟩ := hend hlate more hmore
  rw [hreceived]
  exact congrArg _ hprompt

/-- The prompt answer that is still under way when the late one is sealed moves the initiator's
counter. -/
theorem overtaken :
    let l := run Suite.standard (start .testing SessionKeys.sample)
      (pipelined (Generator.ofSeed 7))
    Letter.late l.responder.letters ≠ [] ∧ l.initiator.session.received = 0 ∧
      (step Suite.standard l .learn).initiator.session.received = 1 := by
  intro l
  obtain ⟨answers, hprompt, hlate, hl⟩ := run_pipelined (Generator.ofSeed 7)
  have hbefore := hl.inStep.kept
  have hafter := hl.received_learn Suite.standard_inverts Suite.standard_tagged rfl
    (fun h => hlate (congrArg Letter.late h))
  rw [hl.unlearnt, List.length_nil, Nat.zero_min] at hbefore
  rw [hprompt] at hafter
  exact ⟨hl.answers ▸ hlate, UInt64.toNat_inj.mp hbefore, UInt64.toNat_inj.mp hafter⟩

end Link

end SealedTunnel
