import SealedTunnel.Proofs.Channel.Completion
import SealedTunnel.Proofs.Channel.Counters

/-!
# One frame from end to end

What becomes of a frame that one end seals, if the other end takes it up next. Both ends count its
bytes, but only the one that takes it up cares how many they are.

* `Frame.length_toBytes`, `Frame.parse_of_short`, `Frame.parse_of_long` — how much of a frame is
  read back, by its length; `Frame.parse_toBytes_iff` — all of it.
* `Session.Awaits`, `Session.Opposes` — an end that takes up the frame next, and the one that made
  it; `Session.decrypt_of_refused`.
* `Sealed.MadeBy.decrypt_of_short`, `Sealed.MadeBy.decrypt_of_keyId` — the two ways in which it is
  refused.
* `Session.sealed_opens` — when it opens; `Session.not_sealed_opens` — not always.
-/

namespace SealedTunnel

variable {ρ : Type} {S : Suite ρ}

/-! ## Reading back -/

namespace Frame

variable {f : Frame}

theorem length_tail (f : Frame) : f.tail.length = 20 + f.keyId.length + f.ciphertext.length := by
  simp only [tail, List.length_append, Bytes.length_ofUInt64, f.iv.length_toList]
  omega

theorem length_toBytes (f : Frame) :
    f.toBytes.length = 23 + f.keyId.length + f.ciphertext.length := by
  rw [toBytes_eq, List.length_cons, List.length_cons, List.length_cons, length_tail]
  omega

/-- A byte string below the smallest size is not read as a frame. -/
theorem parse_of_short {b : Bytes} (h : b.length < minSize) :
    parse b = .error (.malformedFrame s!"frame too short: {b.length} bytes") := by
  rcases b with _ | ⟨version, _ | ⟨environment, _ | ⟨direction, rest⟩⟩⟩
  case cons.cons.cons => exact if_pos h
  all_goals rfl

/-- Of a frame that is long enough everything up to the counter is read back, and a key identifier
of 32 bytes. -/
theorem parse_of_long (h : minSize ≤ f.toBytes.length) :
    ∃ f', parse f.toBytes = .ok f' ∧ f'.version = f.version ∧ f'.environment = f.environment ∧
      f'.direction = f.direction ∧ f'.counter = f.counter ∧ f'.keyId.length = 32 := by
  have htail : minSize ≤ f.tail.length + 3 := by
    rw [toBytes_eq] at h
    exact h
  obtain ⟨iv, -, hparse⟩ :=
    parse_of_length f.version f.environment f.direction (Nat.not_lt.mpr htail)
  rw [toBytes_eq]
  refine ⟨_, hparse, rfl, rfl, rfl, ?_, ?_⟩
  · show Bytes.toUInt64 (f.tail.take 8) = f.counter
    rw [take_tail, Bytes.toUInt64_ofUInt64]
  · show ((f.tail.drop 8).take 32).length = 32
    rw [List.length_take, List.length_drop]
    simp only [minSize, headerSize, ivSize, tagSize] at htail
    omega

/-- What is read back is the frame if its key identifier has 32 bytes and its payload one. -/
theorem parse_toBytes_iff :
    parse f.toBytes = .ok f ↔ f.keyId.length = 32 ∧ tagSize < f.ciphertext.length := by
  refine ⟨fun h => ?_, fun ⟨hkeyId, hpayload⟩ => parse_toBytes hkeyId hpayload⟩
  have hlong : minSize ≤ f.toBytes.length := by
    by_contra hshort
    rw [parse_of_short (Nat.not_le.mp hshort)] at h
    exact nomatch h
  obtain ⟨f', hparse, -, -, -, -, hkeyId⟩ := parse_of_long hlong
  obtain rfl := Except.ok.inj (h.symm.trans hparse)
  refine ⟨hkeyId, ?_⟩
  rw [length_toBytes, hkeyId] at hlong
  simp only [minSize, headerSize, ivSize, tagSize] at hlong ⊢
  omega

end Frame

/-! ## The two ends -/

namespace Session

/-- The frame is the one after the last accepted, and an initiator has sent the request for it. -/
structure Awaits (s : Session) (frame : Frame) : Prop where
  /-- the frame is the one after the last accepted -/
  next : s.received.toNat + 1 = frame.counter.toNat
  /-- an initiator has sent the request -/
  asked : s.role = .initiator → frame.counter ≤ s.sent

variable {s peer : Session} {environment : Environment} {keys : SessionKeys} {frame : Frame}

theorem Awaits.received_ne (h : s.Awaits frame) : s.received ≠ lastCounter := by
  intro hlast
  have hnext := h.next
  have hlt := frame.counter.toNat_lt
  rw [hlast] at hnext
  exact absurd hnext (Nat.ne_of_gt hlt)

theorem Awaits.counter_eq (h : s.Awaits frame) : frame.counter = s.received + 1 := by
  apply UInt64.toNat_inj.mp
  rw [toNat_add_one h.received_ne, h.next]

/-- A frame in sequence may be refused for what is in it. -/
theorem decrypt_of_refused {wire : Bytes} (hparse : Frame.parse wire = .ok frame)
    (hlast : s.received ≠ lastCounter) (hnext : frame.counter = s.received + 1)
    (hsent : s.role = .initiator → frame.counter ≤ s.sent) (hkey : s.openKey.length = 32)
    {e : ChannelError}
    (hrefused : frame.decrypt S s.openKey s.keyId s.environment s.role.incoming = .error e) :
    (decrypt S wire).run s = (.error e, s) := by
  refine run_decrypt_of_fails (fails_decrypt.mpr (.inr ⟨frame, hparse, .inr ⟨hlast, .inr ?_⟩⟩))
  exact ⟨⟨hnext, hsent⟩, .inr ⟨hkey, hrefused⟩⟩

/-- What one end seals the other one opens, if the name of the keys has the size it has in frames:
they have opposite roles and the same keys. -/
structure Opposes (s peer : Session) : Prop where
  /-- opposite roles -/
  role : peer.role = s.role.peer
  /-- one environment -/
  environment : peer.environment = s.environment
  /-- one name for the keys -/
  keyId : peer.keyId = s.keyId
  /-- one key -/
  key : peer.openKey = s.sealKey

theorem Opposes.feeds (h : s.Opposes peer) (hkeyId : s.keyId.length = 32) : s.Feeds peer :=
  ⟨h.role, h.environment, ⟨h.keyId, hkeyId⟩, h.key⟩

/-- The two ends of a channel, after any frames. -/
theorem opposes_of_reset (hs : s.reset = start s.role environment keys)
    (hpeer : peer.reset = start s.role.peer environment keys) : s.Opposes peer := by
  have hfield {α : Type} (field : Session → α)
      (h : field (start s.role.peer environment keys) = field (start s.role environment keys)) :
      field peer.reset = field s.reset := by rw [hpeer, hs, h]
  have hopen := congrArg Session.openKey hpeer
  have hseal := congrArg Session.sealKey hs
  refine ⟨congrArg Session.role hpeer, hfield Session.environment rfl, hfield Session.keyId rfl,
    hopen.trans (Eq.trans ?_ hseal.symm)⟩
  cases s.role <;> rfl

end Session

namespace Sealed.MadeBy

variable {sender receiver : Session} {s : Sealed}

theorem length_toBytes (htagged : S.Tagged) (h : s.MadeBy S sender) :
    s.frame.toBytes.length = sender.keyId.length + s.plain.length + 39 := by
  rw [Frame.length_toBytes, h.length_ciphertext htagged, h.keyId_eq, tagSize]
  omega

/-- A frame is read back as it was sealed unless it is empty, or its keys are named otherwise. -/
theorem parse_iff (htagged : S.Tagged) (h : s.MadeBy S sender) :
    Frame.parse s.frame.toBytes = .ok s.frame ↔ sender.keyId.length = 32 ∧ s.plain ≠ [] := by
  rw [Frame.parse_toBytes_iff, h.length_ciphertext htagged, h.keyId_eq, ← List.length_pos_iff]
  exact and_congr_right fun _ => Nat.lt_add_left_iff_pos

/-- If it is too short for a frame, it is refused. -/
theorem decrypt_of_short (htagged : S.Tagged) (h : s.MadeBy S sender)
    (hshort : sender.keyId.length + s.plain.length < 33) (receiver : Session) :
    (Session.decrypt S s.frame.toBytes).run receiver = (.error (.malformedFrame
      s!"frame too short: {sender.keyId.length + s.plain.length + 39} bytes"), receiver) := by
  have hlength := h.length_toBytes htagged
  have hparse : Frame.parse s.frame.toBytes = _ := Frame.parse_of_short (by
    rw [hlength]
    simp only [Frame.minSize, Frame.headerSize, ivSize, tagSize]
    omega)
  rw [hlength] at hparse
  exact Session.run_decrypt_of_fails (Session.fails_decrypt.mpr (.inl hparse))

/-- If its keys are named otherwise than in 32 bytes, it is refused too. -/
theorem decrypt_of_keyId (htagged : S.Tagged) (h : s.MadeBy S sender)
    (hopposes : sender.Opposes receiver) (hawaits : receiver.Awaits s.frame)
    (hlong : 33 ≤ sender.keyId.length + s.plain.length) (hkeyId : sender.keyId.length ≠ 32) :
    (Session.decrypt S s.frame.toBytes).run receiver = (.error .keyIdMismatch, receiver) := by
  obtain ⟨frame, hparse, hversion, henvironment, hdirection, hcounter, hread⟩ :
      ∃ frame, Frame.parse s.frame.toBytes = .ok frame ∧ _ := Frame.parse_of_long (by
    rw [h.length_toBytes htagged]
    simp only [Frame.minSize, Frame.headerSize, ivSize, tagSize]
    omega)
  have hmade := h.direction_eq
  obtain ⟨salt, hframe⟩ := h.frame_eq
  have hsame : frame.version = Frame.currentVersion ∧
      frame.environment = receiver.environment.byte ∧
      frame.direction = receiver.role.incoming.byte := by
    refine ⟨?_, ?_, ?_⟩
    · rw [hversion, hframe]
    · rw [henvironment, hopposes.environment, hframe]
    · rw [hdirection, hmade, hopposes.role, ← Role.outgoing_peer, Role.peer_peer]
  have hother : frame.keyId ≠ receiver.keyId := by
    intro heq
    rw [heq, hopposes.keyId] at hread
    exact hkeyId hread
  have hrefused : frame.decrypt S receiver.openKey receiver.keyId receiver.environment
      receiver.role.incoming = .error .keyIdMismatch := by
    rw [Frame.decrypt_eq, if_neg (not_not_intro hsame.1), if_neg (not_not_intro hsame.2.1),
      if_neg (not_not_intro hsame.2.2), if_pos hother]
  exact Session.decrypt_of_refused hparse hawaits.received_ne (hcounter.trans hawaits.counter_eq)
    (fun hrole => hcounter ▸ hawaits.asked hrole) (hopposes.key ▸ h.1) hrefused

end Sealed.MadeBy

/-! ## What becomes of a frame -/

namespace Session

open Draw (Yields)

/-- Sealing always uses up a number. The frame is read back as it was sealed exactly if it has a
payload and the keys are named in 32 bytes; and then the other end of the channel, with the frame
next, opens it to the payload. Any other frame is refused there, the empty one for being too short.
-/
theorem sealed_opens (hinverts : S.Inverts) (htagged : S.Tagged) {environment : Environment}
    {keys : SessionKeys} {s s' : Session} {g g' : ρ} {plain : Bytes} {frame : Frame}
    (hs : s.reset = start s.role environment keys)
    (h : Yields (encrypt S plain) (s, g) frame (s', g')) :
    s'.sent = frame.counter ∧ s.sent < s'.sent ∧
    (Frame.parse frame.toBytes = .ok frame ↔ keys.keyId.length = 32 ∧ plain ≠ []) ∧
    ∀ peer : Session, peer.reset = start s.role.peer environment keys → peer.Awaits frame →
      (decrypt S frame.toBytes).run peer =
        if keys.keyId.length + plain.length < 33 then
          (.error (.malformedFrame
            s!"frame too short: {keys.keyId.length + plain.length + 39} bytes"), peer)
        else if keys.keyId.length ≠ 32 then (.error .keyIdMismatch, peer)
        else (.ok plain, { peer with received := frame.counter }) := by
  have hkeyId : s.keyId = keys.keyId := congrArg Session.keyId hs
  obtain ⟨hsent, hlt, -⟩ := encrypt_changes h
  obtain ⟨made, hmade, rfl, rfl⟩ : ∃ made : Sealed, made.MadeBy S s ∧ made.frame = frame ∧
      made.plain = plain := ⟨_, (Party.madeBy_of_yields h []).1, rfl, rfl⟩
  rw [← hkeyId]
  refine ⟨hsent, hlt, hmade.parse_iff htagged, fun peer hpeer hawaits => ?_⟩
  have hopposes := opposes_of_reset hs hpeer
  by_cases hshort : s.keyId.length + made.plain.length < 33
  · rw [if_pos hshort]
    exact hmade.decrypt_of_short htagged hshort peer
  rw [if_neg hshort]
  by_cases hsize : s.keyId.length = 32
  · rw [if_neg (not_not_intro hsize)]
    have hplain : made.plain ≠ [] := by
      intro hempty
      rw [hempty, hsize] at hshort
      exact hshort (by decide)
    have hopened := hmade.decrypt_eq hinverts htagged (hopposes.feeds hsize) hplain
      hawaits.received_ne hawaits.counter_eq hawaits.asked
    exact hopened.run_eq
  · rw [if_pos hsize]
    exact hmade.decrypt_of_keyId htagged hopposes hawaits (Nat.not_lt.mp hshort) hsize

theorem sealed_opens_seventh :
    let s := { start .initiator .testing .sample with sent := 6, received := 4 }
    let peer := { start .responder .testing .sample with sent := 5, received := 6 }
    ∃ frame s' g', Yields (encrypt .standard [42]) (s, Generator.ofSeed 7) frame (s', g') ∧
      s'.sent = 7 ∧ Frame.parse frame.toBytes = .ok frame ∧
      (decrypt .standard frame.toBytes).run peer = (.ok [42], { peer with received := 7 }) := by
  intro s peer
  have hs : s.reset = start s.role .testing .sample := rfl
  have hpeer : peer.reset = start s.role.peer .testing .sample := rfl
  have hnext : s.nextOutgoing = .ok 7 := rfl
  obtain ⟨made, -, hcounter, -, -, hyields⟩ :=
    Party.yields_encrypt (Suite.standard_serves 2) hnext rfl (Generator.ofSeed 7)
      (show ([42] : Bytes).length < 2 by decide) []
  have hawaits : peer.Awaits made.frame := ⟨by rw [hcounter]; rfl, nofun⟩
  obtain ⟨-, -, hparse, hdecrypt⟩ :=
    sealed_opens Suite.standard_inverts Suite.standard_tagged hs hyields
  refine ⟨_, _, _, hyields, rfl, hparse.mpr ⟨rfl, nofun⟩, ?_⟩
  rw [hdecrypt peer hpeer hawaits, hcounter]
  rfl

/-- An empty payload takes a number, and is refused at the other end of the channel. -/
theorem not_sealed_opens :
    ¬ ∀ (keys : SessionKeys) (environment : Environment) (s s' peer : Session) (g g' : Generator)
      (plain : Bytes) (frame : Frame), keys.Sized → s.reset = start s.role environment keys →
      peer.reset = start s.role.peer environment keys →
      Yields (encrypt .standard plain) (s, g) frame (s', g') → peer.Awaits frame →
      Frame.parse frame.toBytes = .ok frame ∧
        (decrypt .standard frame.toBytes).run peer =
          (.ok plain, { peer with received := frame.counter }) := by
  intro h
  have hnext : (start .initiator .testing .sample).nextOutgoing = .ok 1 := rfl
  obtain ⟨made, hmade, hcounter, hplain, -, hyields⟩ :=
    Party.yields_encrypt (Suite.standard_serves 1) hnext rfl (Generator.ofSeed 21)
      (show ([] : Bytes).length < 1 by decide) []
  have hawaits : (start .responder .testing .sample).Awaits made.frame :=
    ⟨by rw [hcounter]; rfl, nofun⟩
  have hsized : SessionKeys.sample.Sized := ⟨rfl, rfl, rfl, rfl, rfl⟩
  obtain ⟨hparse, -⟩ := h _ _ _ _ _ _ _ _ _ hsized rfl rfl hyields hawaits
  exact ((hmade.parse_iff Suite.standard_tagged).mp hparse).2 hplain

end Session

end SealedTunnel
