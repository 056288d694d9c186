import SealedTunnel.Channel.Responder
import SealedTunnel.Proofs.Cbor.RoundTrip

/-!
# Messages on the wire

* `Wire.IsLocal` — what the reader of a type takes does not depend on what follows.
* `Wire.RoundTrips` — what is written is read back.
* `decodeMessage_eq_ok`, `malformed_of_decodeMessage` — when a message is accepted, and what
  becomes of it if it is not.
* `decodeMessage_takes` — an accepted message is taken as a whole.
* `Wire.Announced` — a message that starts with its type; `decodeMessage_write` accepts it.
* `decodeMessage_report` — what becomes of a reported error.
* `Wire.written_returns` — all of what is written comes back.
-/

namespace SealedTunnel

open Cbor (Takes view Fields Reader Fits maxDepth writeRecord writeText)

namespace Wire

/-- What the reader takes does not depend on what follows. -/
def IsLocal (α : Type) [Wire α] : Prop := (Wire.read : Reader α).IsLocal

/-- What is written is read back if there is room for its length and two levels of nesting. -/
def RoundTrips (α : Type) [Wire α] : Prop := ∀ (a : α) (depth : Nat),
  Fits (Wire.write a) → Takes (view (Wire.read (depth + 2))) (Wire.write a) a

theorem RoundTrips.decode_eq_ok {α : Type} [Wire α] (h : RoundTrips α) {a : α}
    (ha : Fits (Wire.write a)) : Wire.decode (Wire.write a) = .ok a :=
  Cbor.decode_eq_ok (h a 125 ha)

/-! ## Readers -/

theorem local_curvePoint : IsLocal CurvePoint := by
  refine Reader.IsLocal.map (Fields.local_read ?_) _
  exact ⟨Reader.local_text, Reader.local_bytes, Reader.local_bytes, trivial⟩

theorem local_message1 : IsLocal Message1 := by
  refine Reader.IsLocal.map (Fields.local_read ?_) _
  exact ⟨Reader.local_text, local_curvePoint, Reader.local_bytes, trivial⟩

theorem local_message2 : IsLocal Message2 := by
  refine Reader.IsLocal.map (Fields.local_read ?_) _
  exact ⟨Reader.local_text, local_curvePoint, Reader.local_bytes, Reader.local_bytes, trivial⟩

theorem local_message3 : IsLocal Message3 := by
  refine Reader.IsLocal.map (Fields.local_read ?_) _
  exact ⟨Reader.local_text, Reader.local_bytes, Reader.local_bytes, trivial⟩

/-! ## Round trips -/

theorem takes_curvePoint {point : CurvePoint} (h : Fits (Wire.write point)) (depth : Nat) :
    Takes (view (Wire.read (depth + 1))) (Wire.write point) point := by
  have hfits := Fits.of_writeRecord h
  simp only [List.forall_mem_cons] at hfits
  obtain ⟨hcurve, hx, hy, -⟩ := hfits
  refine Fields.takes_record (point.curve, point.x, point.y, ()) rfl (by decide) ?_
  exact ⟨rfl, Reader.takes_text hcurve _, rfl, Reader.takes_bytes hx _, rfl,
    Reader.takes_bytes hy _, trivial⟩

theorem roundTrips_publicKeys : RoundTrips PublicKeys := by
  intro keys depth h
  have hfits := Fits.of_writeRecord h
  simp only [List.forall_mem_cons] at hfits
  obtain ⟨-, -, hcomment, hpoint, hkyber, -⟩ := hfits
  refine Fields.takes_record (keys.issued, keys.expiry, keys.comment, keys.point, keys.kyber, ())
    rfl (by decide) ?_
  exact ⟨rfl, Reader.takes_uint64 _ _, rfl, Reader.takes_uint64 _ _, rfl,
    Reader.takes_text hcomment _, rfl, takes_curvePoint hpoint _, rfl, Reader.takes_bytes hkyber _,
    trivial⟩

theorem roundTrips_signedKeys : RoundTrips SignedKeys := by
  intro signed depth h
  have hfits := Fits.of_writeRecord h
  simp only [List.forall_mem_cons] at hfits
  obtain ⟨hpayload, hsignature, hhash, -, hocsp, -⟩ := hfits
  refine Fields.takes_record
    (signed.payload, signed.signature, signed.certHash, signed.version, signed.ocsp, ()) rfl
    (by decide) ?_
  exact ⟨rfl, Reader.takes_bytes hpayload _, rfl, Reader.takes_bytes hsignature _, rfl,
    Reader.takes_bytes hhash _, rfl, Reader.takes_uint64 _ _, rfl, Reader.takes_bytes hocsp _,
    trivial⟩

theorem roundTrips_message1 : RoundTrips Message1 := by
  intro m depth h
  have hfits := Fits.of_writeRecord h
  simp only [List.forall_mem_cons] at hfits
  obtain ⟨htype, hpoint, hkyber, -⟩ := hfits
  refine Fields.takes_record (m.messageType, m.point, m.kyber, ()) rfl (by decide) ?_
  exact ⟨rfl, Reader.takes_text htype _, rfl, takes_curvePoint hpoint _, rfl,
    Reader.takes_bytes hkyber _, trivial⟩

theorem roundTrips_message2 : RoundTrips Message2 := by
  intro m depth h
  have hfits := Fits.of_writeRecord h
  simp only [List.forall_mem_cons] at hfits
  obtain ⟨htype, hpoint, hciphertext, hkeys, -⟩ := hfits
  refine Fields.takes_record (m.messageType, m.point, m.ciphertext, m.sealedKeys, ()) rfl
    (by decide) ?_
  exact ⟨rfl, Reader.takes_text htype _, rfl, takes_curvePoint hpoint _, rfl,
    Reader.takes_bytes hciphertext _, rfl, Reader.takes_bytes hkeys _, trivial⟩

theorem roundTrips_message3 : RoundTrips Message3 := by
  intro m depth h
  have hfits := Fits.of_writeRecord h
  simp only [List.forall_mem_cons] at hfits
  obtain ⟨htype, hinner, hconfirmation, -⟩ := hfits
  refine Fields.takes_record (m.messageType, m.sealedInner, m.confirmation, ()) rfl (by decide) ?_
  exact ⟨rfl, Reader.takes_text htype _, rfl, Reader.takes_bytes hinner _, rfl,
    Reader.takes_bytes hconfirmation _, trivial⟩

theorem roundTrips_message3Inner : RoundTrips Message3Inner := by
  intro m depth h
  have hfits := Fits.of_writeRecord h
  simp only [List.forall_mem_cons] at hfits
  obtain ⟨hpoint, hciphertext, -, -, -⟩ := hfits
  refine Fields.takes_record (m.point, m.ciphertext, m.erp, m.eso, ()) rfl (by decide) ?_
  exact ⟨rfl, takes_curvePoint hpoint _, rfl, Reader.takes_bytes hciphertext _, rfl,
    Reader.takes_boolean _ _, rfl, Reader.takes_boolean _ _, trivial⟩

theorem roundTrips_message4 : RoundTrips Message4 := by
  intro m depth h
  have hfits := Fits.of_writeRecord h
  simp only [List.forall_mem_cons] at hfits
  obtain ⟨htype, hconfirmation, -⟩ := hfits
  refine Fields.takes_record (m.messageType, m.confirmation, ()) rfl (by decide) ?_
  exact ⟨rfl, Reader.takes_text htype _, rfl, Reader.takes_bytes hconfirmation _, trivial⟩

/-- The code of an error that is reported has 32 bits. -/
theorem takes_errorMessage {e : ErrorMessage} (hcode : e.code < 2 ^ 32) (h : Fits (Wire.write e))
    (depth : Nat) : Takes (view (Wire.read (depth + 1))) (Wire.write e) e := by
  have hfits := Fits.of_writeRecord h
  simp only [List.forall_mem_cons] at hfits
  obtain ⟨htype, -, hmessage, -⟩ := hfits
  have hsize : e.code < Cbor.sizeLimit := Nat.lt_trans hcode (by decide)
  refine Fields.takes_record (e.messageType, e.code, e.message, ()) rfl (by decide) ?_
  exact ⟨rfl, Reader.takes_text htype _, rfl, Reader.takes_natural hcode hsize _, rfl,
    Reader.takes_text hmessage _, trivial⟩

theorem takes_skip_curvePoint {point : CurvePoint} (h : Fits (Wire.write point)) (depth : Nat) :
    Takes (view (Reader.skip (depth + 1))) (Wire.write point) () := by
  have hfits := Fits.of_writeRecord h
  simp only [List.forall_mem_cons] at hfits
  obtain ⟨hcurve, hx, hy, -⟩ := hfits
  refine Reader.takes_skip_record ?_ ?_ ?_
  · show 3 < Cbor.sizeLimit
    decide
  · simp only [List.forall_mem_cons]
    exact ⟨by decide, by decide, by decide, nofun⟩
  · simp only [List.forall_mem_cons]
    exact ⟨Reader.takes_skip_text hcurve.of_writeText _, Reader.takes_skip_bytes hx _,
      Reader.takes_skip_bytes hy _, nofun⟩

/-! ## Messages with a type -/

/-- What is written starts with the message's type, and the rest of it may be skipped. -/
def Announced {α : Type} [Wire α] (a : α) (messageType : String) : Prop :=
  ∃ others : List (String × Bytes), others.length < 16 ∧
    Wire.write a = writeRecord (("MessageType", writeText messageType) :: others) ∧
    ∀ e ∈ others, e.1 ≠ "MessageType" ∧ Fits (Bytes.ofString e.1) ∧
      Takes (view (Reader.skip 126)) e.2 ()

theorem announced_message1 {m : Message1} (h : Fits (Wire.write m)) :
    Announced m m.messageType := by
  have hfits := Fits.of_writeRecord h
  simp only [List.forall_mem_cons] at hfits
  obtain ⟨-, hpoint, hkyber, -⟩ := hfits
  refine ⟨_, by simp, rfl, ?_⟩
  simp only [List.forall_mem_cons]
  exact ⟨⟨by decide, by decide, takes_skip_curvePoint hpoint _⟩,
    ⟨by decide, by decide, Reader.takes_skip_bytes hkyber _⟩, nofun⟩

theorem announced_message2 {m : Message2} (h : Fits (Wire.write m)) :
    Announced m m.messageType := by
  have hfits := Fits.of_writeRecord h
  simp only [List.forall_mem_cons] at hfits
  obtain ⟨-, hpoint, hciphertext, hkeys, -⟩ := hfits
  refine ⟨_, by simp, rfl, ?_⟩
  simp only [List.forall_mem_cons]
  exact ⟨⟨by decide, by decide, takes_skip_curvePoint hpoint _⟩,
    ⟨by decide, by decide, Reader.takes_skip_bytes hciphertext _⟩,
    ⟨by decide, by decide, Reader.takes_skip_bytes hkeys _⟩, nofun⟩

theorem announced_message3 {m : Message3} (h : Fits (Wire.write m)) :
    Announced m m.messageType := by
  have hfits := Fits.of_writeRecord h
  simp only [List.forall_mem_cons] at hfits
  obtain ⟨-, hinner, hconfirmation, -⟩ := hfits
  refine ⟨_, by simp, rfl, ?_⟩
  simp only [List.forall_mem_cons]
  exact ⟨⟨by decide, by decide, Reader.takes_skip_bytes hinner _⟩,
    ⟨by decide, by decide, Reader.takes_skip_bytes hconfirmation _⟩, nofun⟩

theorem announced_message4 {m : Message4} (h : Fits (Wire.write m)) :
    Announced m m.messageType := by
  have hfits := Fits.of_writeRecord h
  simp only [List.forall_mem_cons] at hfits
  obtain ⟨-, hconfirmation, -⟩ := hfits
  refine ⟨_, by simp, rfl, ?_⟩
  simp only [List.forall_mem_cons]
  exact ⟨⟨by decide, by decide, Reader.takes_skip_bytes hconfirmation _⟩, nofun⟩

theorem announced_errorMessage {e : ErrorMessage} (hcode : e.code < 2 ^ 32)
    (h : Fits (Wire.write e)) : Announced e e.messageType := by
  have hfits := Fits.of_writeRecord h
  simp only [List.forall_mem_cons] at hfits
  obtain ⟨-, -, hmessage, -⟩ := hfits
  have hsize : e.code < Cbor.sizeLimit := Nat.lt_trans hcode (by decide)
  refine ⟨_, by simp, rfl, ?_⟩
  simp only [List.forall_mem_cons]
  exact ⟨⟨by decide, by decide, Reader.takes_skip_natural hsize _⟩,
    ⟨by decide, by decide, Reader.takes_skip_text hmessage.of_writeText _⟩, nofun⟩

theorem Announced.messageTypeOf_eq {α : Type} [Wire α] {a : α} {messageType : String}
    (h : Announced a messageType) (hfits : Fits (Wire.write a)) :
    messageTypeOf (Wire.write a) = .ok (some messageType) := by
  obtain ⟨others, hcount, hwrite, hothers⟩ := h
  rw [hwrite] at hfits ⊢
  have htype : Fits (writeText messageType) := Fits.of_writeRecord hfits _ List.mem_cons_self
  have hread := @Fields.takes_read_one _ 126 "MessageType" (some none) none _ _ _ others
    (Reader.takes_optional_text htype 126) (by decide) ?_ hothers
  · exact Cbor.decode_eq_ok (Cbor.takes_bind_pure hread fun _ _ => rfl)
  · simp only [Cbor.sizeLimit]
    omega

end Wire

/-! ## Decoding a message -/

section Decoding

variable {α : Type} [Wire α] {expected : String} {number : Nat}

/-- An accepted message is what its type's reader makes of the whole of it. -/
theorem decode_of_decodeMessage {b : Bytes} {a : α} (h : decodeMessage expected number b = .ok a) :
    Wire.decode b = .ok a := by
  unfold decodeMessage at h
  dsimp only at h
  split at h
  · exact nomatch h
  · exact nomatch h
  split at h
  · split at h
    · rename_i hdecode
      exact Except.ok.inj h ▸ hdecode
    · exact nomatch h
  split at h
  · split at h <;> exact nomatch h
  · exact nomatch h

/-- An accepted message claims the expected type. -/
theorem messageTypeOf_of_decodeMessage {b : Bytes} {a : α}
    (h : decodeMessage expected number b = .ok a) : messageTypeOf b = .ok (some expected) := by
  unfold decodeMessage at h
  dsimp only at h
  split at h
  · exact nomatch h
  · exact nomatch h
  rename_i found hfound
  split at h
  · rename_i heq
    rwa [heq] at hfound
  split at h
  · split at h <;> exact nomatch h
  · exact nomatch h

/-- A message is accepted if it claims the expected type and is one of that type. -/
theorem decodeMessage_eq_ok {m : α} : decodeMessage expected number b = .ok m ↔
    messageTypeOf b = .ok (some expected) ∧ Wire.decode b = .ok m := by
  constructor
  · exact fun h => ⟨messageTypeOf_of_decodeMessage h, decode_of_decodeMessage h⟩
  · rintro ⟨hfirst, hsecond⟩
    simp only [decodeMessage]
    rw [hfirst]
    dsimp only
    rw [if_pos rfl, hsecond]

/-- Whatever is wrong with a message, it is reported under the message's number. -/
theorem malformed_of_decodeMessage {e : ChannelError}
    (h : (decodeMessage expected number b : Except ChannelError α) = .error e) :
    ∃ reason, e = .malformedMessage number reason := by
  unfold decodeMessage at h
  dsimp only at h
  split at h
  · exact ⟨_, (Except.error.inj h).symm⟩
  · exact ⟨_, (Except.error.inj h).symm⟩
  split at h
  · split at h
    · exact nomatch h
    · exact ⟨_, (Except.error.inj h).symm⟩
  split at h
  · split at h <;> exact ⟨_, (Except.error.inj h).symm⟩
  · exact ⟨_, (Except.error.inj h).symm⟩

/-- An accepted message is taken as a whole. -/
theorem decodeMessage_takes (hlocal : Wire.IsLocal α) {b : Bytes} {a : α}
    (h : decodeMessage expected number b = .ok a) : Takes (view (Wire.read maxDepth)) b a :=
  Cbor.decode_takes hlocal (decode_of_decodeMessage h)

/-- A message that was written is accepted. -/
theorem decodeMessage_write (hround : Wire.RoundTrips α) {a : α} (ha : Wire.Announced a expected)
    (hfits : Fits (Wire.write a)) : decodeMessage expected number (Wire.write a) = .ok a :=
  decodeMessage_eq_ok.mpr ⟨ha.messageTypeOf_eq hfits, hround.decode_eq_ok hfits⟩

theorem ChannelError.code_lt (e : ChannelError) : e.code < 2 ^ 32 := by
  cases e <;> simp [code]

/-- A report of an error is refused, with what it reports. -/
theorem decodeMessage_report (e : ChannelError) (hfits : Fits e.report)
    (hexpected : expected ≠ "Error") :
    (decodeMessage expected number e.report : Except ChannelError α) =
      .error (.malformedMessage number s!"peer reported error {e.code}: {e.message}") := by
  have htype : messageTypeOf e.report = .ok (some "Error") :=
    (Wire.announced_errorMessage e.code_lt hfits).messageTypeOf_eq hfits
  have hdecode : (Wire.decode e.report : Except Cbor.Fault ErrorMessage) =
      .ok { messageType := "Error", code := e.code, message := e.message } :=
    Cbor.decode_eq_ok (Wire.takes_errorMessage e.code_lt hfits 126)
  simp only [decodeMessage]
  rw [htype]
  dsimp only
  rw [if_neg hexpected.symm, if_pos rfl, hdecode]

end Decoding

/-! ## All that is written -/

/-- Stapled keys are written like signed keys that carry the revocation status. -/
theorem Responder.write_staple (r : Responder) (ocsp : Bytes) :
    (r.staple ocsp).write = Wire.write { r.signed with ocsp } := rfl

namespace Wire

/-- A value comes back from its written form, if that is not too long. -/
def Returns {α : Type} [Wire α] (a : α) : Prop :=
  Fits (Wire.write a) → Wire.decode (Wire.write a) = .ok a

/-- So does a message, as one of an expected type. -/
def ReturnsAs {α : Type} [Wire α] (expected : String) (number : Nat) (a : α) : Prop :=
  Fits (Wire.write a) → decodeMessage expected number (Wire.write a) = .ok a

/-- Every value comes back from its written form. A message is accepted under its own type, while a
report of an error is refused with all that it says. Stapled keys come back as signed keys. -/
theorem written_returns (number : Nat) :
    ((∀ k : CurvePoint, Returns k) ∧ (∀ k : PublicKeys, Returns k) ∧ (∀ k : SignedKeys, Returns k) ∧
      (∀ m : Message1, Returns m) ∧ (∀ m : Message2, Returns m) ∧ (∀ m : Message3, Returns m) ∧
      (∀ m : Message3Inner, Returns m) ∧ (∀ m : Message4, Returns m) ∧
      ∀ e : ErrorMessage, e.code < 2 ^ 32 → Returns e) ∧
    ((∀ m : Message1, m.messageType = "M1" → ReturnsAs "M1" number m) ∧
      (∀ m : Message2, m.messageType = "M2" → ReturnsAs "M2" number m) ∧
      (∀ m : Message3, m.messageType = "M3" → ReturnsAs "M3" number m) ∧
      ∀ m : Message4, m.messageType = "M4" → ReturnsAs "M4" number m) ∧
    (∀ (α : Type) [Wire α] (expected : String) (e : ChannelError), expected ≠ "Error" →
      Fits e.report → (decodeMessage expected number e.report : Except ChannelError α) =
        .error (.malformedMessage number s!"peer reported error {e.code}: {e.message}")) ∧
    ∀ (r : Responder) (ocsp : Bytes),
      (r.staple ocsp).write = Wire.write { r.signed with ocsp } := by
  refine ⟨⟨?_, ?_, ?_, ?_, ?_, ?_, ?_, ?_, ?_⟩, ⟨?_, ?_, ?_, ?_⟩, ?_, Responder.write_staple⟩
  · exact fun k h => Cbor.decode_eq_ok (takes_curvePoint h 126)
  · exact fun k => roundTrips_publicKeys.decode_eq_ok
  · exact fun k => roundTrips_signedKeys.decode_eq_ok
  · exact fun m => roundTrips_message1.decode_eq_ok
  · exact fun m => roundTrips_message2.decode_eq_ok
  · exact fun m => roundTrips_message3.decode_eq_ok
  · exact fun m => roundTrips_message3Inner.decode_eq_ok
  · exact fun m => roundTrips_message4.decode_eq_ok
  · exact fun e hcode h => Cbor.decode_eq_ok (takes_errorMessage hcode h 126)
  · exact fun m htype h =>
      decodeMessage_write roundTrips_message1 (htype ▸ announced_message1 h) h
  · exact fun m htype h =>
      decodeMessage_write roundTrips_message2 (htype ▸ announced_message2 h) h
  · exact fun m htype h =>
      decodeMessage_write roundTrips_message3 (htype ▸ announced_message3 h) h
  · exact fun m htype h =>
      decodeMessage_write roundTrips_message4 (htype ▸ announced_message4 h) h
  · exact fun α _ expected e hexpected h => decodeMessage_report e h hexpected

theorem written_returns_sample :
    let keys : SignedKeys := {
      payload := [0xa0], signature := List.replicate 64 7, certHash := [], version := 0xffffffffffffffff
      ocsp := List.replicate 256 9 }
    let message : Message4 := { messageType := "M4", confirmation := List.replicate 24 1 }
    Wire.decode (Wire.write keys) = .ok keys ∧
      decodeMessage "M4" 4 (Wire.write message) = .ok message ∧
      (decodeMessage "M4" 4 ChannelError.unknownCid.report : Except ChannelError Message4) =
        .error (.malformedMessage 4 "peer reported error 9: unknown channel id") := by
  obtain ⟨⟨-, -, hkeys, -⟩, ⟨-, -, -, hmessage⟩, hreport, -⟩ := written_returns 4
  exact ⟨hkeys _ (by decide +kernel), hmessage _ rfl (by decide),
    hreport Message4 "M4" .unknownCid (by decide) (by decide)⟩

end Wire

end SealedTunnel
