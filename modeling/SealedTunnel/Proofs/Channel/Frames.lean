import SealedTunnel.Channel.Session
import SealedTunnel.Proofs.Channel.Draw

/-!
# Frames and steps of a session

* `Frame.header_injective` — the clear part of a frame determines every field in it;
  `Frame.ivOf_injective`.
* `Frame.parse_of_length`, `Frame.parse_toBytes` — a frame is read back as it was written.
* `Frame.decrypt_eq`, `Frame.decrypt_eq_ok` — what an opened frame was checked for.
* `Frame.encrypt_eq_ok` — what an encrypted frame is made of.
* `Session.yields_encrypt`, `Session.yields_decrypt` — everything that the two steps of a session
  do.
* `Session.fails_encrypt`, `Session.fails_decrypt` — all exits by which they fail.
* `Session.spares_encrypt`, `Session.spares_decrypt` — by whatever exit a step fails, the session is
  as before.
-/

namespace SealedTunnel

/-! ## Directions -/

theorem Direction.byte_injective {d d' : Direction} (h : d.byte = d'.byte) : d = d' := by
  cases d <;> cases d' <;> first | rfl | exact absurd h (by decide)

@[simp] theorem Role.outgoing_peer (r : Role) : r.peer.outgoing = r.incoming := by
  cases r <;> rfl

@[simp] theorem Role.peer_peer (r : Role) : r.peer.peer = r := by
  cases r <;> rfl

theorem Role.outgoing_ne_incoming (r : Role) : r.outgoing ≠ r.incoming := by
  cases r <;> decide

/-- There are only the two ends. -/
theorem Role.eq_or_eq_peer (r r' : Role) : r' = r ∨ r' = r.peer := by
  cases r <;> cases r' <;> simp [Role.peer]

namespace Frame

/-! ## The clear part -/

theorem ofUInt64_injective {m n : UInt64} (h : Bytes.ofUInt64 m = Bytes.ofUInt64 n) : m = n := by
  have heq := congrArg Bytes.toUInt64 h
  rwa [Bytes.toUInt64_ofUInt64, Bytes.toUInt64_ofUInt64] at heq

/-- Frames with the same clear part agree in all of its fields. -/
theorem header_injective {f f' : Frame} (h : f.header = f'.header) :
    f.version = f'.version ∧ f.environment = f'.environment ∧ f.direction = f'.direction ∧
      f.counter = f'.counter ∧ f.keyId = f'.keyId := by
  simp only [header, List.cons_append, List.nil_append, List.cons.injEq] at h
  obtain ⟨hversion, henvironment, hdirection, hrest⟩ := h
  obtain ⟨hcounter, hkeyId⟩ := List.append_inj hrest (by simp)
  exact ⟨hversion, henvironment, hdirection, ofUInt64_injective hcounter, hkeyId⟩

/-- An IV determines the counter in it, whatever the random bytes are. -/
theorem ivOf_injective {salt salt' : Vector UInt8 4} {counter counter' : UInt64}
    (h : ivOf salt counter = ivOf salt' counter') : counter = counter' := by
  have hbytes := congrArg Vector.toList h
  simp only [ivOf, Vector.toList_append, Vector.toList_mk] at hbytes
  have hlength : salt.toList.length = salt'.toList.length := by
    rw [salt.length_toList, salt'.length_toList]
  exact ofUInt64_injective (List.append_inj hbytes hlength).2

theorem length_header (f : Frame) : f.header.length = 11 + f.keyId.length := by
  simp only [header, List.length_append, List.length_cons, List.length_nil,
    Bytes.length_ofUInt64]

/-! ## Reading back -/

/-- Everything after the first three bytes of a frame. -/
def tail (f : Frame) : Bytes :=
  Bytes.ofUInt64 f.counter ++ (f.keyId ++ (f.iv.toList ++ f.ciphertext))

theorem toBytes_eq (f : Frame) :
    f.toBytes = f.version :: f.environment :: f.direction :: f.tail := by
  simp only [toBytes, header, tail, List.cons_append, List.nil_append, List.append_assoc]

theorem take_tail (f : Frame) : f.tail.take 8 = Bytes.ofUInt64 f.counter :=
  List.take_left' (Bytes.length_ofUInt64 _)

theorem drop_tail (f : Frame) : f.tail.drop 8 = f.keyId ++ (f.iv.toList ++ f.ciphertext) :=
  List.drop_left' (Bytes.length_ofUInt64 _)

/-- The parts of a frame that is long enough have their sizes. -/
theorem parse_of_length (version environment direction : UInt8) {rest : Bytes}
    (h : ¬ rest.length + 3 < minSize) :
    ∃ iv : Vector UInt8 12, iv.toList = (rest.drop 40).take 12 ∧
      parse (version :: environment :: direction :: rest) = .ok {
        version, environment, direction, counter := Bytes.toUInt64 (rest.take 8)
        keyId := (rest.drop 8).take 32, iv, ciphertext := rest.drop 52 } := by
  simp only [minSize, headerSize, ivSize, tagSize] at h
  have hcounter : (rest.take 8).length = 8 := by
    rw [List.length_take]
    omega
  have hiv : ((rest.drop 40).take 12).length = 12 := by
    rw [List.length_take, List.length_drop]
    omega
  obtain ⟨counter, hreadCounter, hcounterList⟩ := exactly_of_length "counter" hcounter
  obtain ⟨iv, hreadIv, hivList⟩ := exactly_of_length "iv" hiv
  refine ⟨iv, hivList, ?_⟩
  simp only [parse, minSize, headerSize, ivSize, tagSize, if_neg h, hreadCounter, hreadIv, bind,
    Except.bind, hcounterList]
  rfl

/-- A frame with a key identifier of 32 bytes and a payload is read back as it was written. -/
theorem parse_toBytes {f : Frame} (hkeyId : f.keyId.length = 32)
    (hpayload : tagSize < f.ciphertext.length) : parse f.toBytes = .ok f := by
  have hiv : f.iv.toList.length = 12 := f.iv.length_toList
  have hdrop40 : f.tail.drop 40 = f.iv.toList ++ f.ciphertext := by
    rw [show f.tail.drop 40 = (f.tail.drop 8).drop 32 by rw [List.drop_drop], drop_tail]
    exact List.drop_left' hkeyId
  have hdrop52 : f.tail.drop 52 = f.ciphertext := by
    rw [show f.tail.drop 52 = (f.tail.drop 40).drop 12 by rw [List.drop_drop], hdrop40]
    exact List.drop_left' hiv
  have hlength : ¬ f.tail.length + 3 < minSize := by
    simp only [tagSize] at hpayload
    simp only [tail, minSize, headerSize, ivSize, tagSize, List.length_append,
      Bytes.length_ofUInt64, hkeyId, hiv]
    omega
  obtain ⟨iv', hivList, hparse⟩ := parse_of_length f.version f.environment f.direction hlength
  rw [toBytes_eq, hparse]
  obtain ⟨version, environment, direction, counter, keyId, iv, ciphertext⟩ := f
  simp only [Except.ok.injEq, mk.injEq, true_and]
  refine ⟨?_, ?_, ?_, hdrop52⟩
  · rw [take_tail, Bytes.toUInt64_ofUInt64]
  · rw [drop_tail]
    exact List.take_left' hkeyId
  · apply Vector.toList_inj.mp
    rw [hivList, hdrop40]
    exact List.take_left' hiv

/-! ## Encryption -/

variable {ρ : Type} {S : Suite ρ}

/-- What an encrypted frame is made of. -/
theorem encrypt_eq_ok {key keyId plain : Bytes} {environment : Environment}
    {direction : Direction} {counter : UInt64} {salt : Vector UInt8 4} {f : Frame} :
    encrypt S key keyId environment direction counter salt plain = .ok f ↔
      S.encrypt? key f.iv.toList f.header plain = some f.ciphertext ∧
      f = { version := currentVersion, environment := environment.byte
            direction := direction.byte, counter, keyId, iv := ivOf salt counter
            ciphertext := f.ciphertext } := by
  simp only [encrypt]
  constructor
  · intro h
    obtain ⟨ciphertext, hsealed, h⟩ := bind_eq_ok.mp h
    obtain rfl := Except.ok.inj h
    exact ⟨Suite.encrypt_eq_ok.mp hsealed, rfl⟩
  · rintro ⟨hsealed, hframe⟩
    refine bind_eq_ok.mpr ⟨f.ciphertext, Suite.encrypt_eq_ok.mpr ?_, congrArg Except.ok hframe.symm⟩
    rw [hframe] at hsealed
    exact hsealed

/-! ## Decryption -/

/-- The tag of a ciphertext that is long enough has its size. -/
theorem decrypt_eq (key keyId : Bytes) (environment : Environment) (direction : Direction)
    (f : Frame) : f.decrypt S key keyId environment direction =
      if f.version ≠ currentVersion then
        .error (.malformedFrame s!"unsupported version {f.version}")
      else if f.environment ≠ environment.byte then
        .error (.malformedFrame
          s!"PU flag mismatch: expected {environment.byte}, got {f.environment}")
      else if f.direction ≠ direction.byte then
        .error (.malformedFrame
          s!"direction mismatch: expected {direction.byte}, got {f.direction}")
      else if f.keyId ≠ keyId then .error .keyIdMismatch
      else if f.ciphertext.length < tagSize then .error (.malformedFrame "ciphertext too short")
      else
        match S.decrypt? key f.iv.toList f.header f.ciphertext with
        | some plain => .ok plain
        | none => .error (.authentication "application data") := by
  simp only [decrypt]
  by_cases hlength : f.ciphertext.length < tagSize
  · simp only [if_pos hlength]
  · have htag : (f.ciphertext.drop (f.ciphertext.length - tagSize)).length = tagSize := by
      rw [List.length_drop]
      omega
    obtain ⟨tag, hreadTag, htagList⟩ := exactly_of_length "tag" htag
    cases hopened : S.decrypt? key f.iv.toList f.header f.ciphertext <;>
      simp only [hreadTag, bind, Except.bind, htagList, List.take_append_drop, hopened]

/-- What a frame that opens was checked for. -/
theorem decrypt_eq_ok {key keyId plain : Bytes} {environment : Environment}
    {direction : Direction} {f : Frame} :
    f.decrypt S key keyId environment direction = .ok plain ↔
      f.version = currentVersion ∧ f.environment = environment.byte ∧
      f.direction = direction.byte ∧ f.keyId = keyId ∧ tagSize ≤ f.ciphertext.length ∧
      S.decrypt? key f.iv.toList f.header f.ciphertext = some plain := by
  simp only [decrypt_eq, refuse_eq_ok, ne_eq, Decidable.not_not, Nat.not_lt]
  cases S.decrypt? key f.iv.toList f.header f.ciphertext with
  | none => simp
  | some opened => simp

end Frame

/-! ## Steps of a session -/

namespace Session

open Draw (Yields Fails Spares yields_bind yields_pure yields_lift_bind yields_get_bind
  yields_modify_bind yields_beside yields_random yields_guard fails_bind fails_lift_bind fails_guard
  fails_get_bind fails_beside fails_random not_fails_modify_pure)

variable {ρ : Type} {S : Suite ρ} {s s' : Session}

/-- A session with its counters set back. -/
def reset (s : Session) : Session := { s with sent := 0, received := 0 }

/-- No counter below the last one wraps. -/
theorem toNat_add_one {n : UInt64} (h : n ≠ lastCounter) : (n + 1).toNat = n.toNat + 1 := by
  have hne : n.toNat ≠ 0xffffffffffffffff := fun heq => h (UInt64.toNat_inj.mp heq)
  have hlt := n.toNat_lt
  rw [UInt64.toNat_add, UInt64.toNat_one]
  omega

/-- An initiator counts up to the largest counter. A responder takes up the counter of the last
request, unless it has answered that one. -/
theorem nextOutgoing_eq_ok {counter : UInt64} :
    s.nextOutgoing = .ok counter ↔
      (s.role = .initiator ∧ s.sent ≠ lastCounter ∧ counter = s.sent + 1) ∨
      (s.role = .responder ∧ s.sent < s.received ∧ counter = s.received) := by
  simp only [nextOutgoing]
  cases s.role with
  | initiator =>
    by_cases h : s.sent = lastCounter
    · simp [h]
    · simp [h, eq_comm]
  | responder =>
    by_cases h : s.sent < s.received
    · simp [h, eq_comm]
    · simp [h]

/-- The counter of the next frame lies above that of the last one. -/
theorem sent_lt {counter : UInt64} (h : s.nextOutgoing = .ok counter) : s.sent < counter := by
  rcases nextOutgoing_eq_ok.mp h with ⟨-, hlast, rfl⟩ | ⟨-, hlt, rfl⟩
  · rw [UInt64.lt_iff_toNat_lt, toNat_add_one hlast]
    exact Nat.lt_succ_self _
  · exact hlt

/-- A session that encrypts numbers the frame as its role demands, and remembers the number. -/
theorem yields_encrypt {g g' : ρ} {plain : Bytes} {frame : Frame} :
    Yields (encrypt S plain) (s, g) frame (s', g') ↔
      ∃ counter salt, s.nextOutgoing = .ok counter ∧ S.poisoned g = false ∧
        S.draw 4 g = (salt, g') ∧ s.sealKey.length = 32 ∧ s' = { s with sent := counter } ∧
        Frame.encrypt S s.sealKey s.keyId s.environment s.role.outgoing counter salt plain =
          .ok frame := by
  simp only [encrypt, yields_get_bind]
  constructor
  · intro h
    obtain ⟨counter, hcounter, h⟩ := yields_lift_bind.mp h
    obtain ⟨salt, ⟨s₂, g₂⟩, hbeside, h⟩ := yields_bind.mp h
    obtain ⟨rfl, hrandom⟩ := yields_beside.mp hbeside
    obtain ⟨hpoisoned, hdraw⟩ := yields_random.mp hrandom
    obtain ⟨u, hkey, h⟩ := yields_lift_bind.mp h
    obtain ⟨made, hmade, h⟩ := yields_lift_bind.mp h
    have h := yields_modify_bind.mp h
    obtain ⟨rfl, hstate⟩ := yields_pure.mp h
    obtain ⟨rfl, rfl⟩ := Prod.mk.inj hstate
    exact ⟨counter, salt, hcounter, hpoisoned, hdraw, checkCipherKey_eq_ok.mp hkey, rfl, hmade⟩
  · rintro ⟨counter, salt, hcounter, hpoisoned, hdraw, hkey, rfl, hmade⟩
    refine yields_lift_bind.mpr ⟨counter, hcounter, ?_⟩
    refine yields_bind.mpr ⟨salt, (s, g'), ?_, ?_⟩
    · exact yields_beside.mpr ⟨rfl, yields_random.mpr ⟨hpoisoned, hdraw⟩⟩
    refine yields_lift_bind.mpr ⟨(), checkCipherKey_eq_ok.mpr hkey, ?_⟩
    refine yields_lift_bind.mpr ⟨frame, hmade, ?_⟩
    exact yields_modify_bind.mpr (yields_pure.mpr ⟨rfl, rfl⟩)

/-- A session that decrypts has the next frame in hand, and an initiator has sent the request that
the frame answers. -/
theorem yields_decrypt {wire plain : Bytes} :
    Yields (decrypt S wire) s plain s' ↔
      ∃ frame, Frame.parse wire = .ok frame ∧ s.received ≠ lastCounter ∧
        frame.counter = s.received + 1 ∧
        (s.role = .initiator → frame.counter ≤ s.sent) ∧ s.openKey.length = 32 ∧
        frame.decrypt S s.openKey s.keyId s.environment s.role.incoming = .ok plain ∧
        s' = { s with received := frame.counter } := by
  simp only [decrypt]
  constructor
  · intro h
    obtain ⟨frame, hparse, h⟩ := yields_lift_bind.mp h
    have h := yields_get_bind.mp h
    obtain ⟨hlast, h⟩ := yields_guard.mp h
    obtain ⟨hcounter, h⟩ := yields_guard.mp h
    obtain ⟨hnext, hsent⟩ := not_or.mp hcounter
    obtain ⟨u, hkey, h⟩ := yields_lift_bind.mp h
    obtain ⟨opened, hopened, h⟩ := yields_lift_bind.mp h
    have h := yields_modify_bind.mp h
    obtain ⟨rfl, rfl⟩ := yields_pure.mp h
    refine ⟨frame, hparse, hlast, Decidable.not_not.mp hnext, fun hrole => ?_,
      checkCipherKey_eq_ok.mp hkey, hopened, rfl⟩
    exact UInt64.not_lt.mp fun hlt => hsent ⟨hrole, hlt⟩
  · rintro ⟨frame, hparse, hlast, hnext, hsent, hkey, hopened, rfl⟩
    refine yields_lift_bind.mpr ⟨frame, hparse, ?_⟩
    refine yields_get_bind.mpr (yields_guard.mpr ⟨hlast, ?_⟩)
    refine yields_guard.mpr ⟨?_, ?_⟩
    · rintro (hne | ⟨hrole, hlt⟩)
      · exact hne hnext
      · exact absurd hlt (UInt64.not_lt.mpr (hsent hrole))
    · refine yields_lift_bind.mpr ⟨(), checkCipherKey_eq_ok.mpr hkey, ?_⟩
      refine yields_lift_bind.mpr ⟨plain, hopened, ?_⟩
      exact yields_modify_bind.mpr (yields_pure.mpr ⟨rfl, rfl⟩)

/-! ### What a failure leaves -/

/-- The counter of frames sent is raised last, so no exit before leaves a trace in the session. -/
theorem spares_encrypt (S : Suite ρ) (plain : Bytes) :
    Spares Prod.fst (encrypt S plain : Draw (Session × ρ) Frame) :=
  .bind .get fun _ => .bind (.lift _) fun _ => .bind (.beside _) fun _ => .bind (.lift _) fun _ =>
    .bind (.lift _) fun _ => .modify_pure _ _

/-- So is the counter of frames received. -/
theorem spares_decrypt (S : Suite ρ) (wire : Bytes) : Spares id (decrypt S wire) :=
  .bind (.lift _) fun _ => .bind .get fun _ => .guard <| .guard <| .bind (.lift _) fun _ =>
    .bind (.lift _) fun _ => .modify_pure _ _

/-! ### The exits -/

/-- The exits by which sealing fails, in their order. -/
theorem fails_encrypt {g : ρ} {plain : Bytes} {e : ChannelError} :
    Fails (encrypt S plain) (s, g) e ↔ s.nextOutgoing = .error e ∨
      ∃ counter, s.nextOutgoing = .ok counter ∧
        (S.poisoned g = true ∧ e = .internal "rng lock poisoned" ∨ S.poisoned g = false ∧
          (s.sealKey.length ≠ 32 ∧ e = .internal "aead key" ∨ s.sealKey.length = 32 ∧
            Frame.encrypt S s.sealKey s.keyId s.environment s.role.outgoing counter
              (S.draw 4 g).1 plain = .error e)) := by
  simp only [encrypt, fails_get_bind]
  constructor
  · intro h
    obtain h | ⟨counter, hcounter, h⟩ := fails_lift_bind.mp h
    · exact .inl h
    refine .inr ⟨counter, hcounter, ?_⟩
    obtain h | ⟨salt, ⟨s₂, g₂⟩, hbeside, h⟩ := fails_bind.mp h
    · exact .inl (fails_random.mp (fails_beside.mp h))
    obtain ⟨rfl, hrandom⟩ := yields_beside.mp hbeside
    obtain ⟨hpoisoned, hdraw⟩ := yields_random.mp hrandom
    refine .inr ⟨hpoisoned, ?_⟩
    obtain h | ⟨u, hkey, h⟩ := fails_lift_bind.mp h
    · exact .inl (checkCipherKey_eq_error.mp h)
    refine .inr ⟨checkCipherKey_eq_ok.mp hkey, ?_⟩
    obtain h | ⟨made, -, h⟩ := fails_lift_bind.mp h
    · rw [hdraw]
      exact h
    · exact absurd h not_fails_modify_pure
  · rintro (h | ⟨counter, hcounter, h⟩)
    · exact fails_lift_bind.mpr (.inl h)
    refine fails_lift_bind.mpr (.inr ⟨counter, hcounter, ?_⟩)
    obtain h | ⟨hpoisoned, h⟩ := h
    · exact fails_bind.mpr (.inl (fails_beside.mpr (fails_random.mpr h)))
    refine fails_bind.mpr (.inr ⟨(S.draw 4 g).1, (s, (S.draw 4 g).2), ?_, ?_⟩)
    · exact yields_beside.mpr ⟨rfl, yields_random.mpr ⟨hpoisoned, rfl⟩⟩
    obtain h | ⟨hkey, h⟩ := h
    · exact fails_lift_bind.mpr (.inl (checkCipherKey_eq_error.mpr h))
    · refine fails_lift_bind.mpr (.inr ⟨(), checkCipherKey_eq_ok.mpr hkey, ?_⟩)
      exact fails_lift_bind.mpr (.inl h)

/-- The exits by which opening fails, in their order. -/
theorem fails_decrypt {wire : Bytes} {e : ChannelError} :
    Fails (decrypt S wire) s e ↔ Frame.parse wire = .error e ∨
      ∃ frame, Frame.parse wire = .ok frame ∧
        (s.received = lastCounter ∧ e = .internal "response counter exhausted" ∨
          s.received ≠ lastCounter ∧
          ((frame.counter ≠ s.received + 1 ∨ (s.role = .initiator ∧ s.sent < frame.counter)) ∧
            e = .counterMismatch (s.received + 1) frame.counter ∨
          (frame.counter = s.received + 1 ∧ (s.role = .initiator → frame.counter ≤ s.sent)) ∧
          (s.openKey.length ≠ 32 ∧ e = .internal "aead key" ∨ s.openKey.length = 32 ∧
            frame.decrypt S s.openKey s.keyId s.environment s.role.incoming = .error e))) := by
  have hsequence (frame : Frame) :
      ¬(frame.counter ≠ s.received + 1 ∨ (s.role = .initiator ∧ s.sent < frame.counter)) ↔
        frame.counter = s.received + 1 ∧ (s.role = .initiator → frame.counter ≤ s.sent) := by
    rw [not_or, Decidable.not_not, not_and, UInt64.not_lt]
  simp only [decrypt]
  rw [fails_lift_bind]
  refine or_congr_right (exists_congr fun frame => and_congr_right fun _ => ?_)
  rw [fails_get_bind, fails_guard]
  refine or_congr_right (and_congr_right fun _ => ?_)
  rw [fails_guard, hsequence]
  refine or_congr_right (and_congr_right fun _ => ?_)
  rw [fails_lift_bind, checkCipherKey_eq_error]
  refine or_congr_right ⟨?_, ?_⟩
  · rintro ⟨u, hkey, h⟩
    obtain h | ⟨plain, -, h⟩ := fails_lift_bind.mp h
    · exact ⟨checkCipherKey_eq_ok.mp hkey, h⟩
    · exact absurd h not_fails_modify_pure
  · rintro ⟨hkey, h⟩
    exact ⟨(), checkCipherKey_eq_ok.mpr hkey, fails_lift_bind.mpr (.inl h)⟩

/-- Opening that fails leaves the session as it was. -/
theorem run_decrypt_of_fails {wire : Bytes} {e : ChannelError} (h : Fails (decrypt S wire) s e) :
    (decrypt S wire).run s = (.error e, s) := Prod.ext h (spares_decrypt S wire s e h)

/-- The next frame in hand is out of sequence. -/
theorem decrypt_of_ne {wire : Bytes} {frame : Frame} (hparse : Frame.parse wire = .ok frame)
    (hlast : s.received ≠ lastCounter) (hne : frame.counter ≠ s.received + 1) :
    (decrypt S wire).run s = (.error (.counterMismatch (s.received + 1) frame.counter), s) :=
  run_decrypt_of_fails <| fails_decrypt.mpr <|
    .inr ⟨frame, hparse, .inr ⟨hlast, .inl ⟨.inl hne, rfl⟩⟩⟩

end Session

end SealedTunnel
