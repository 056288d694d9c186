import SealedTunnel.Proofs.Channel.Party
import SealedTunnel.Proofs.Channel.Primitives

/-!
# Conversations over an open network

Both ends of a channel, and an attacker who carries every byte string between
them: what an end is asked to decrypt may be anything.

* `Conversation`, `Move`, `Conversation.run` — what both ends are asked to do, in any order.
* `Genuine`, `Authentic` — the assumption on the attacker: only what was sealed under a key opens
  under it.
* `Faithful` — the invariant: what an end accepted is what the other one said, in sequence.
* `run_agrees` — what holds after any run.
-/

namespace SealedTunnel

/-- The parties at the two ends of a channel. -/
abbrev Conversation : Type := Role → Party

/-- One end is asked to do something. -/
structure Move (ρ : Type) where
  /-- which end -/
  who : Role
  /-- what it is asked to do -/
  action : Party.Action ρ

namespace Conversation

variable {ρ : Type} (S : Suite ρ)

/-- Both ends before the first frame. -/
def start (environment : Environment) (keys : SessionKeys) : Conversation :=
  fun role => Party.start role environment keys

/-- One end does what it is asked to. -/
def step (c : Conversation) (m : Move ρ) : Conversation := fun role =>
  if role = m.who then (c role).step S m.action else c role

/-- Both ends do what they are asked to, in this order. -/
def run (c : Conversation) (moves : List (Move ρ)) : Conversation := moves.foldl (step S) c

/-! ## The attacker -/

/-- A frame that opens at one end was sealed by an end that has the key: clear part, IV and
ciphertext are those of a frame in its history. -/
def Genuine (c : Conversation) (m : Move ρ) : Prop :=
  match m.action with
  | .encrypt _ _ => True
  | .decrypt wire => ∀ frame plain, Frame.parse wire = .ok frame →
      S.decrypt? (c m.who).session.openKey frame.iv.toList frame.header frame.ciphertext =
        some plain →
      ∃ sender, (c sender).session.sealKey = (c m.who).session.openKey ∧
        ∃ s ∈ (c sender).sealed, s.frame.header = frame.header ∧ s.frame.iv = frame.iv ∧
          s.frame.ciphertext = frame.ciphertext

/-- The attacker forges nothing along a run. -/
def Authentic : Conversation → List (Move ρ) → Prop
  | _, [] => True
  | c, m :: moves => Genuine S c m ∧ Authentic (step S c m) moves

variable {S}

/-! ## The invariant -/

/-- What an end accepted is what the other one said, in sequence. -/
structure Faithful (S : Suite ρ) (c : Conversation) : Prop where
  /-- either history fits its counters -/
  orderly : ∀ role, (c role).Orderly S
  /-- either end plays its role -/
  role : ∀ role, (c role).session.role = role
  /-- the responder accepted the first requests that were sealed -/
  requests : (c .responder).accepted <+: (c .initiator).sealed.map Sealed.plain
  /-- the initiator accepted an answer to each of its first requests -/
  answers : ∀ k plain, (c .initiator).accepted[k]? = some plain →
    ∃ s ∈ (c .responder).sealed, s.frame.counter.toNat = k + 1 ∧ s.plain = plain

theorem start_faithful (environment : Environment) (keys : SessionKeys) :
    Faithful S (start environment keys) where
  orderly := fun role => Party.start_orderly role environment keys
  role := fun _ => rfl
  requests := List.prefix_refl _
  answers := fun _ _ h => nomatch h

/-- A frame that an end accepts is one that the other end sealed with its payload: neither end takes
its own frames for the other's. -/
theorem Faithful.sealed_of_opened {c : Conversation} (hc : Faithful S c) (hS : S.Inverts)
    {who : Role} {wire : Bytes} (hm : Genuine S c ⟨who, .decrypt wire⟩) {frame : Frame}
    {plain : Bytes} (hparse : Frame.parse wire = .ok frame)
    (hopened : frame.decrypt S (c who).session.openKey (c who).session.keyId
      (c who).session.environment (c who).session.role.incoming = .ok plain) :
    ∃ s ∈ (c who.peer).sealed, s.frame.counter = frame.counter ∧ s.plain = plain := by
  obtain ⟨-, -, hdirection, -, -, hplain⟩ := Frame.decrypt_eq_ok.mp hopened
  obtain ⟨sender, hkey, s, hs, hheader, hiv, hciphertext⟩ := hm frame plain hparse hplain
  obtain ⟨-, -, hsdirection, hcounter, -⟩ := Frame.header_injective hheader
  have hmade := (hc.orderly sender).made s hs
  -- the two keys may be equal, but the direction in the header tells the ends apart
  have hsender : sender = who.peer := by
    rcases Role.eq_or_eq_peer who sender with rfl | hpeer
    · rw [hmade.direction_eq, hdirection] at hsdirection
      exact absurd (Direction.byte_injective hsdirection) (Role.outgoing_ne_incoming _)
    · exact hpeer
  subst hsender
  rw [← hkey] at hplain
  exact ⟨s, hs, hcounter, hmade.plain_eq hS hheader hiv hciphertext hplain⟩

theorem step_of_eq (c : Conversation) (who : Role) (action : Party.Action ρ) :
    step S c ⟨who, action⟩ who = (c who).step S action := if_pos rfl

theorem step_of_ne (c : Conversation) {who role : Role} (h : role ≠ who)
    (action : Party.Action ρ) : step S c ⟨who, action⟩ role = c role := if_neg h

theorem Faithful.orderly_step {c : Conversation} (hc : Faithful S c) (m : Move ρ) (role : Role) :
    (step S c m role).Orderly S := by
  simp only [step]
  split
  · exact (hc.orderly role).step m.action
  · exact hc.orderly role

theorem Faithful.role_step {c : Conversation} (hc : Faithful S c) (m : Move ρ) (role : Role) :
    (step S c m role).session.role = role := by
  simp only [step]
  split
  · exact (congrArg Session.role (Party.reset_step (c role) m.action)).trans (hc.role role)
  · exact hc.role role

theorem Faithful.encrypt {c : Conversation} (hc : Faithful S c) (who : Role) (g : ρ)
    (plain : Bytes) : Faithful S (step S c ⟨who, .encrypt g plain⟩) := by
  have haccepted : ∀ role,
      (step S c ⟨who, .encrypt g plain⟩ role).accepted = (c role).accepted := by
    intro role
    simp only [step]
    split
    · exact Party.accepted_encrypt _ _ _
    · rfl
  have hsealed : ∀ role, (c role).sealed <+: (step S c ⟨who, .encrypt g plain⟩ role).sealed := by
    intro role
    simp only [step]
    split
    · exact Party.sealed_prefix_encrypt _ _ _
    · exact List.prefix_refl _
  constructor
  case orderly => exact hc.orderly_step _
  case role => exact hc.role_step _
  case requests =>
    rw [haccepted]
    exact hc.requests.trans ((hsealed .initiator).map _)
  case answers =>
    intro k plain hk
    rw [haccepted] at hk
    obtain ⟨s, hs, hcounter, hplain⟩ := hc.answers k plain hk
    exact ⟨s, (hsealed .responder).subset hs, hcounter, hplain⟩

/-- A list that goes on as a longer one does is still the start of it. -/
theorem prefix_concat {α : Type} {l l' : List α} {a : α} (h : l <+: l')
    (ha : l'[l.length]? = some a) : l ++ [a] <+: l' := by
  obtain ⟨t, rfl⟩ := h
  cases t with
  | nil => simp at ha
  | cons b t =>
    have hb : b = a := by simpa using ha
    subst hb
    exact ⟨t, by simp⟩

theorem Faithful.decrypt {c : Conversation} (hc : Faithful S c) (hS : S.Inverts) (who : Role)
    (wire : Bytes) (hm : Genuine S c ⟨who, .decrypt wire⟩) :
    Faithful S (step S c ⟨who, .decrypt wire⟩) := by
  have hsealed : ∀ role, (step S c ⟨who, .decrypt wire⟩ role).sealed = (c role).sealed := by
    intro role
    simp only [step]
    split
    · exact Party.sealed_decrypt _ _
    · rfl
  rcases Party.decrypt_cases (S := S) (c who) wire with
    heq | ⟨frame, plain, hparse, hlast, hnext, -, hopened, heq⟩
  · -- refused: nothing changes
    have hsame : step S c ⟨who, .decrypt wire⟩ = c := by
      funext role
      simp only [step]
      split
      · rename_i hrole
        rw [hrole]
        exact heq
      · rfl
    rwa [hsame]
  obtain ⟨s, hs, hcounter, hplain⟩ := hc.sealed_of_opened hS hm hparse hopened
  have haccepted : (step S c ⟨who, .decrypt wire⟩ who).accepted = (c who).accepted ++ [plain] := by
    rw [step_of_eq]
    exact congrArg Party.accepted heq
  -- the counter of the frame is one more than the number of payloads accepted
  have hnumber : s.frame.counter.toNat = (c who).accepted.length + 1 := by
    rw [hcounter, hnext, Session.toNat_add_one hlast, (hc.orderly who).received]
  constructor
  case orderly => exact hc.orderly_step _
  case role => exact hc.role_step _
  case requests =>
    rw [hsealed]
    cases who with
    | initiator =>
      rw [step_of_ne c (by decide)]
      exact hc.requests
    | responder =>
      -- the request stands in the initiator's history where its counter says
      obtain ⟨hget, -⟩ := (hc.orderly .initiator).getElem?_eq (hc.role _) hs
      rw [hnumber, Nat.add_sub_cancel] at hget
      rw [haccepted]
      refine prefix_concat hc.requests ?_
      rw [List.getElem?_map, hget]
      exact congrArg some hplain
  case answers =>
    rw [hsealed]
    cases who with
    | initiator =>
      intro k answer hk
      rw [haccepted] at hk
      rcases Nat.lt_trichotomy k (c .initiator).accepted.length with hlt | rfl | hgt
      · rw [List.getElem?_append_left hlt] at hk
        exact hc.answers k answer hk
      · rw [List.getElem?_concat_length] at hk
        obtain rfl := Option.some.inj hk
        exact ⟨s, hs, hnumber, hplain⟩
      · rw [List.getElem?_eq_none (by rw [List.length_append, List.length_singleton]; omega)] at hk
        exact nomatch hk
    | responder =>
      rw [step_of_ne c (by decide)]
      exact hc.answers

theorem Faithful.step {c : Conversation} (hc : Faithful S c) (hS : S.Inverts) {m : Move ρ}
    (hm : Genuine S c m) : Faithful S (step S c m) := by
  obtain ⟨who, action⟩ := m
  cases action with
  | encrypt g plain => exact hc.encrypt who g plain
  | decrypt wire => exact hc.decrypt hS who wire hm

/-- Whatever both ends are asked to do, they stay in step. -/
theorem Faithful.run {c : Conversation} (hc : Faithful S c) (hS : S.Inverts) {moves : List (Move ρ)}
    (h : Authentic S c moves) : Faithful S (run S c moves) := by
  induction moves generalizing c with
  | nil => exact hc
  | cons m moves ih =>
    obtain ⟨hm, hmoves⟩ := h
    exact ih (hc.step hS hm) hmoves

/-! ## What holds after a run -/

/-- An answer that the initiator accepted is the only one sealed after exactly so many requests, and
those are the first ones that were sent. -/
theorem Faithful.answer {c : Conversation} (hc : Faithful S c) {k : Nat} {plain : Bytes}
    (hk : (c .initiator).accepted[k]? = some plain) :
    ∃ s, (c .responder).sealed.filter (fun s => s.accepted.length = k + 1) = [s] ∧
      s.plain = plain ∧ s.accepted = ((c .initiator).sealed.map Sealed.plain).take (k + 1) := by
  obtain ⟨s, hs, hcounter, hplain⟩ := hc.answers k plain hk
  have ho := hc.orderly .responder
  have hrole := hc.role .responder
  have hlength : s.accepted.length = k + 1 := (ho.answered hrole s hs).symm.trans hcounter
  have hfilter := ho.filter_eq hrole hs
  rw [hlength] at hfilter
  refine ⟨s, hfilter, hplain, ?_⟩
  rw [← hlength]
  exact List.prefix_iff_eq_take.mp ((ho.seen s hs).trans hc.requests)

/-! ## A network that delivers -/

/-- The bytes of the last frame that an end sealed. -/
def lastWire (c : Conversation) (who : Role) : Bytes :=
  match (c who).sealed.getLast? with
  | some s => s.frame.toBytes
  | none => []

variable (S) in
/-- An end seals a payload, and the frame is carried to the other end. -/
def carried (c : Conversation) (who : Role) (g : ρ) (plain : Bytes) : List (Move ρ) :=
  let sent := step S c ⟨who, .encrypt g plain⟩
  [⟨who, .encrypt g plain⟩, ⟨who.peer, .decrypt (lastWire sent who)⟩]

theorem authentic_append {c : Conversation} {moves moves' : List (Move ρ)}
    (h : Authentic S c moves) (h' : Authentic S (run S c moves) moves') :
    Authentic S c (moves ++ moves') := by
  induction moves generalizing c with
  | nil => exact h'
  | cons m moves ih => exact ⟨h.1, ih h.2 h'⟩

theorem run_append (c : Conversation) (moves moves' : List (Move ρ)) :
    run S c (moves ++ moves') = run S (run S c moves) moves' := List.foldl_append

/-- A payload that is carried in sequence is accepted. -/
theorem run_carried (hinverts : S.Inverts) (htagged : S.Tagged) (c : Conversation) (who : Role)
    (g : ρ) (plain : Bytes) (hserves : S.Serves (plain.length + 1)) (hplain : plain ≠ [])
    {counter : UInt64}
    (hcounter : (c who).session.nextOutgoing = .ok counter)
    (hkey : (c who).session.sealKey.length = 32)
    (hfeeds : (c who).session.Feeds (c who.peer).session)
    (hlast : (c who.peer).session.received ≠ Session.lastCounter)
    (hnext : counter = (c who.peer).session.received + 1)
    (hbehind : (c who.peer).session.role = .initiator → counter ≤ (c who.peer).session.sent) :
    Authentic S c (carried S c who g plain) ∧
      (run S c (carried S c who g plain) who).session = { (c who).session with sent := counter } ∧
      (run S c (carried S c who g plain) who).accepted = (c who).accepted ∧
      run S c (carried S c who g plain) who.peer = {
        session := { (c who.peer).session with received := counter }
        sealed := (c who.peer).sealed
        accepted := (c who.peer).accepted ++ [plain] } := by
  have hself : who ≠ who.peer := by cases who <;> decide
  obtain ⟨s, hmade, rfl, rfl, hsealed⟩ :=
    Party.encrypt_eq hserves hcounter hkey g (Nat.lt_succ_self plain.length)
  have hdecrypt := hmade.decrypt_eq hinverts htagged hfeeds hplain hlast hnext hbehind
  have hparse := hmade.parse_eq htagged hfeeds.keyId.2 hplain
  -- the conversation between the two moves
  obtain ⟨sent, hsent⟩ : ∃ sent, sent = step S c ⟨who, .encrypt g s.plain⟩ := ⟨_, rfl⟩
  have hwho : sent who = (c who).encrypt S g s.plain := hsent ▸ step_of_eq c who _
  have hpeer : sent who.peer = c who.peer := hsent ▸ step_of_ne c hself.symm _
  rw [hsealed] at hwho
  have hwire : lastWire sent who = s.frame.toBytes := by
    simp only [lastWire]
    rw [hwho]
    simp
  have hmoves : carried S c who g s.plain =
      [⟨who, .encrypt g s.plain⟩, ⟨who.peer, .decrypt s.frame.toBytes⟩] := by
    rw [← hwire, hsent]
    rfl
  have hrun : run S c (carried S c who g s.plain) =
      step S sent ⟨who.peer, .decrypt s.frame.toBytes⟩ := by
    rw [hmoves, hsent]
    rfl
  refine ⟨?_, ?_, ?_, ?_⟩
  · rw [hmoves]
    refine ⟨trivial, ?_, trivial⟩
    rw [← hsent]
    intro frame plain hframe _
    obtain rfl := Except.ok.inj (hparse.symm.trans hframe)
    refine ⟨who, ?_, s, ?_, rfl, rfl, rfl⟩
    · show _ = (sent who.peer).session.openKey
      rw [hwho, hpeer, hfeeds.key]
    · rw [hwho]
      exact List.mem_concat_self
  · rw [hrun, step_of_ne _ hself, hwho]
  · rw [hrun, step_of_ne _ hself, hwho]
  · rw [hrun, step_of_eq, hpeer, Party.step, Party.decrypt, hdecrypt.run_eq]

/-! ## What holds after any run -/

/-- Over an open network, the requests that the responder accepted are the first ones that the
initiator sealed, in order; and the `k`-th answer that the initiator accepted is the one answer
sealed when exactly the first `k` requests had been accepted. -/
theorem run_agrees (hS : S.Inverts) (environment : Environment) (keys : SessionKeys)
    (moves : List (Move ρ)) (h : Authentic S (start environment keys) moves) :
    let c := run S (start environment keys) moves
    (c .responder).accepted <+: (c .initiator).sealed.map Sealed.plain ∧
      ∀ k plain, (c .initiator).accepted[k]? = some plain →
        ∃ s, (c .responder).sealed.filter (fun s => s.accepted.length = k + 1) = [s] ∧
          s.plain = plain ∧
          s.accepted = ((c .initiator).sealed.map Sealed.plain).take (k + 1) := by
  have hc := (start_faithful environment keys).run hS h
  exact ⟨hc.requests, fun k plain hk => hc.answer hk⟩

/-- A question, and an answer to it. -/
def sampleMoves (g : Generator) : List (Move Generator) :=
  let question := carried Suite.standard (start .testing SessionKeys.sample) .initiator g [0x3f]
  let asked := run Suite.standard (start .testing SessionKeys.sample) question
  question ++ carried Suite.standard asked .responder g [0x21]

/-- With the real primitives, a question and its answer are accepted. -/
theorem run_agrees_sample :
    let moves := sampleMoves (Generator.ofSeed 7)
    let c := run Suite.standard (start .testing SessionKeys.sample) moves
    Suite.standard.Inverts ∧ Authentic Suite.standard (start .testing SessionKeys.sample) moves ∧
      (c .responder).accepted = [[0x3f]] ∧ (c .initiator).accepted = [[0x21]] ∧
      (c .responder).accepted <+: (c .initiator).sealed.map Sealed.plain ∧
      ∀ k plain, (c .initiator).accepted[k]? = some plain →
        ∃ s, (c .responder).sealed.filter (fun s => s.accepted.length = k + 1) = [s] ∧
          s.plain = plain ∧
          s.accepted = ((c .initiator).sealed.map Sealed.plain).take (k + 1) := by
  have hinverts := Suite.standard_inverts
  have htagged := Suite.standard_tagged
  generalize Generator.ofSeed 7 = g
  have hcounter : (start .testing SessionKeys.sample .initiator).session.nextOutgoing = .ok 1 := rfl
  obtain ⟨hauthentic, hsession, haccepted, hresponder⟩ := run_carried hinverts htagged
    (start .testing SessionKeys.sample) .initiator g [0x3f] (Suite.standard_serves _) (by decide)
    hcounter rfl
    ⟨rfl, rfl, ⟨rfl, rfl⟩, rfl⟩ (by decide) rfl nofun
  -- the conversation after the question
  obtain ⟨asked, hdef⟩ : ∃ asked, asked = run Suite.standard (start .testing SessionKeys.sample)
    (carried Suite.standard (start .testing SessionKeys.sample) .initiator g [0x3f]) := ⟨_, rfl⟩
  rw [← hdef] at hsession haccepted hresponder
  rw [Role.peer] at hresponder
  have hfeeds : (asked .responder).session.Feeds (asked .initiator).session := by
    rw [hresponder, hsession]
    exact ⟨rfl, rfl, ⟨rfl, rfl⟩, rfl⟩
  have hcounter' : (asked .responder).session.nextOutgoing = .ok 1 := by
    rw [hresponder]
    rfl
  obtain ⟨hauthentic', -, haccepted', hinitiator⟩ := run_carried hinverts htagged asked .responder g
    [0x21] (Suite.standard_serves _) (by decide) hcounter' (by rw [hresponder]; rfl) hfeeds
    (by rw [Role.peer, hsession]; decide) (by rw [Role.peer, hsession]; rfl)
    (fun _ => by rw [Role.peer, hsession]; decide)
  rw [Role.peer] at hinitiator
  have hmoves : Authentic Suite.standard (start .testing SessionKeys.sample) (sampleMoves g) := by
    refine authentic_append hauthentic ?_
    rw [← hdef]
    exact hauthentic'
  have hrun : run Suite.standard (start .testing SessionKeys.sample) (sampleMoves g) =
      run Suite.standard asked (carried Suite.standard asked .responder g [0x21]) := by
    refine (run_append _ _ _).trans ?_
    rw [← hdef]
  refine ⟨hinverts, hmoves, ?_, ?_, run_agrees hinverts .testing SessionKeys.sample _ hmoves⟩
  · rw [hrun, haccepted', hresponder]
    rfl
  · rw [hrun, hinitiator, haccepted]
    rfl

end Conversation

end SealedTunnel
