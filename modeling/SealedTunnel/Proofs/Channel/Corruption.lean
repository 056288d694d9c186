import SealedTunnel.Proofs.Cbor.Names
import SealedTunnel.Proofs.Channel.Agreement

/-!
# A byte of message 3 is changed on the way

Everything in a message 3 is a string behind a head. A changed byte of a name, of the type or of a
ciphertext is always noticed. One of a head may leave the strings as they are, since a byte string
counts as the text it encodes: the responder goes on then, and only the initiator can notice.

* `OneOff` — two byte strings are different in one byte.
* `Message3.pieces`, `Message3.Respelled` — the strings of a message 3 behind their heads, and
  behind other heads.
* `Message3.eq_write_of_decode`, `Message3.respelled_of_decode` — the heads that are written leave
  no choice of the strings.
* `Message3.respell` — a message 3 with one other head that is read as the same message.
* `Tamperproof` — the ciphertexts in a message 3 open only as they were sent.
* `corrupted_message3` — when the responder accepts a message 3 with a changed byte.
* `Untouched.respelled_accepted`, `not_corruption_noticed` — this happens in every handshake.
-/

namespace SealedTunnel

open Cbor (Fits Fields Reader Takes Ends Head view view_eq_some view_bind_eq_some maxDepth
  writeRecord writeText writeBytes writeString)
open Draw (Yields)

/-! ## One byte -/

/-- Two byte strings are different in one byte, and in no other. -/
def OneOff (a b : Bytes) : Prop :=
  ∃ before x y after, x ≠ y ∧ a = before ++ x :: after ∧ b = before ++ y :: after

namespace OneOff

variable {a b p q : Bytes}

theorem ne (h : OneOff a b) : a ≠ b := by
  obtain ⟨before, x, y, after, hne, rfl, rfl⟩ := h
  intro heq
  exact hne (List.cons.inj (List.append_cancel_left heq)).1

theorem length_eq (h : OneOff a b) : a.length = b.length := by
  obtain ⟨before, x, y, after, -, rfl, rfl⟩ := h
  simp

/-- The byte is in one of two parts. -/
theorem append (h : OneOff (p ++ q) b) :
    (∃ p', OneOff p p' ∧ b = p' ++ q) ∨ ∃ q', OneOff q q' ∧ b = p ++ q' := by
  obtain ⟨before, x, y, after, hne, heq, rfl⟩ := h
  obtain ⟨part, rfl, hafter⟩ | ⟨part, rfl, hrest⟩ := List.append_eq_append_iff.mp heq
  · refine .inr ⟨part ++ y :: after, ⟨part, x, y, after, hne, hafter, rfl⟩, ?_⟩
    rw [List.append_assoc]
  · cases part with
    | nil =>
      refine .inr ⟨y :: after, ⟨[], x, y, after, hne, hrest.symm, rfl⟩, ?_⟩
      rw [List.append_nil]
    | cons z part =>
      obtain ⟨rfl, rfl⟩ := List.cons.inj hrest
      refine .inl ⟨before ++ y :: part, ⟨before, x, y, part, hne, rfl, rfl⟩, ?_⟩
      simp

end OneOff

/-- Heads, each with the string behind it. -/
def glue (pieces : List (Bytes × Bytes)) : Bytes := pieces.flatMap fun x => x.1 ++ x.2

/-- Either the strings are still the same, or the heads are. -/
theorem OneOff.glue {pieces : List (Bytes × Bytes)} {b : Bytes} (h : OneOff (glue pieces) b) :
    ∃ pieces', b = SealedTunnel.glue pieces' ∧
      pieces'.map (fun x => (x.1.length, x.2.length)) =
        pieces.map (fun x => (x.1.length, x.2.length)) ∧
      (pieces'.map Prod.snd = pieces.map Prod.snd ∨
        pieces'.map Prod.fst = pieces.map Prod.fst) := by
  induction pieces generalizing b with
  | nil =>
    obtain ⟨before, x, y, after, -, heq, -⟩ := h
    exact absurd heq (by simp [SealedTunnel.glue])
  | cons piece pieces ih =>
    obtain ⟨head, string⟩ := piece
    have h : OneOff (head ++ string ++ SealedTunnel.glue pieces) b := h
    obtain ⟨_, hpiece, rfl⟩ | ⟨_, hrest, rfl⟩ := h.append
    · obtain ⟨head', hhead, rfl⟩ | ⟨string', hstring, rfl⟩ := hpiece.append
      · exact ⟨(head', string) :: pieces, rfl, by simp [hhead.length_eq], .inl rfl⟩
      · exact ⟨(head, string') :: pieces, rfl, by simp [hstring.length_eq], .inr rfl⟩
    · obtain ⟨pieces', rfl, hlengths, hsame⟩ := ih hrest
      refine ⟨(head, string) :: pieces', rfl, congrArg (_ :: ·) hlengths, ?_⟩
      exact hsame.imp (congrArg (string :: ·)) (congrArg (head :: ·))

/-! ## Message 3 in pieces -/

namespace Message3

/-- The strings of a message 3, each with its head: names and type as texts, ciphertexts as byte
strings. Nothing is behind the head of the map itself. -/
def pieces (m : Message3) : List (Bytes × Bytes) :=
  (Head.write 5 3, []) :: [(3, Bytes.ofString "MessageType"), (3, Bytes.ofString m.messageType),
    (3, Bytes.ofString "AEAD_ct"), (2, m.sealedInner),
    (3, Bytes.ofString "AEAD_ct_key_confirmation"), (2, m.confirmation)].map
      fun (major, string) => (Head.write major string.length, string)

theorem write_eq (m : Message3) : Wire.write m = glue m.pieces := by
  simp [Wire.write, writeRecord, writeText, writeBytes, glue, pieces]

/-- The strings are those of a message 3, behind heads of the same sizes. -/
def Respelled (m : Message3) (b : Bytes) : Prop :=
  ∃ pieces : List (Bytes × Bytes), pieces.map Prod.snd = m.pieces.map Prod.snd ∧
    pieces.map (fun x => x.1.length) = m.pieces.map (fun x => x.1.length) ∧ b = glue pieces

/-- The fields of a message 3. -/
def fields : Fields [String, Bytes, Bytes] :=
  required "MessageType" Reader.text <| required "AEAD_ct" Reader.bytes <|
    required "AEAD_ct_key_confirmation" Reader.bytes .nil

variable {expected : String} {b name₁ type name₂ sealedInner name₃ confirmation : Bytes}
  {m : Message3}

/-- The value of each field is a string, of either kind. -/
theorem ends_fields {major : Nat} (hmajor : major = 2 ∨ major = 3) (hb : Fits b) (depth : Nat) :
    fields.AllEnd depth (writeString major b) :=
  ⟨Reader.ends_text hmajor hb depth, Reader.ends_bytes hmajor hb depth,
    Reader.ends_bytes hmajor hb depth, trivial⟩

/-- An accepted message 3 is a record. -/
theorem exists_values_of_decode (h : decodeMessage expected 3 b = .ok m) :
    ∃ values rest, view (fields.read maxDepth) b = some (values, rest) := by
  have htakes := decodeMessage_takes Wire.local_message3 h []
  rw [List.append_nil] at htakes
  obtain ⟨values, rest, hread, -⟩ := view_bind_eq_some.mp htakes
  exact ⟨values, rest.val, view_eq_some.mpr ⟨rest.property, hread⟩⟩

/-- Strings in the places of those in a message 3. -/
def entries (name₁ type name₂ sealedInner name₃ confirmation : Bytes) : List (Bytes × Bytes) :=
  [(name₁, writeString 3 type), (name₂, writeString 2 sealedInner),
    (name₃, writeString 2 confirmation)]

/-- Names have different lengths, so each of them has only one place. -/
theorem names_of_decode (hname₁ : name₁.length = 11) (hname₂ : name₂.length = 7)
    (hname₃ : name₃.length = 24) (htype : Fits type) (hinner : Fits sealedInner)
    (hconfirmation : Fits confirmation)
    (h : decodeMessage expected 3 (Head.write 5 3 ++ Fields.writeEntries
      (entries name₁ type name₂ sealedInner name₃ confirmation)) = .ok m) :
    name₁ = Bytes.ofString "MessageType" ∧ name₂ = Bytes.ofString "AEAD_ct" ∧
      name₃ = Bytes.ofString "AEAD_ct_key_confirmation" := by
  have hentries : ∀ e ∈ entries name₁ type name₂ sealedInner name₃ confirmation, Fits e.1 ∧
      fields.AllEnd 126 e.2 ∧ Ends (view (Reader.skip 126)) e.2 := by
    simp only [entries, List.forall_mem_cons]
    refine ⟨⟨?_, ends_fields (.inr rfl) htype _, Reader.ends_skip (.inr rfl) htype _⟩,
      ⟨?_, ends_fields (.inl rfl) hinner _, Reader.ends_skip (.inl rfl) hinner _⟩,
      ⟨?_, ends_fields (.inl rfl) hconfirmation _, Reader.ends_skip (.inl rfl) hconfirmation _⟩,
      nofun⟩ <;>
    · simp only [Fits, Cbor.sizeLimit]
      omega
  obtain ⟨values, rest, hread⟩ := exists_values_of_decode h
  rw [← List.append_nil (Fields.writeEntries _)] at hread
  have hrequired : fields.AllRequired := ⟨rfl, rfl, rfl, trivial⟩
  have hcount : (entries name₁ type name₂ sealedInner name₃ confirmation).length < Cbor.sizeLimit :=
    show 3 < Cbor.sizeLimit by decide
  have hplace : ∀ name ∈ fields.names,
      ((Bytes.ofString name).length = 11 → name₁ = Bytes.ofString name) ∧
      ((Bytes.ofString name).length = 7 → name₂ = Bytes.ofString name) ∧
      ((Bytes.ofString name).length = 24 → name₃ = Bytes.ofString name) := by
    intro name hname
    obtain ⟨e, he, heq⟩ := Fields.exists_entry_of_read hrequired hcount hentries hread name hname
    rw [← heq]
    simp only [entries, List.mem_cons, List.not_mem_nil, or_false] at he
    obtain rfl | rfl | rfl := he <;> simp [hname₁, hname₂, hname₃]
  simp only [fields, required, Fields.names, List.forall_mem_cons] at hplace
  obtain ⟨⟨h₁, -⟩, ⟨-, h₂, -⟩, ⟨-, -, h₃⟩, -⟩ := hplace
  exact ⟨h₁ (by decide), h₂ (by decide), h₃ (by decide)⟩

/-- What is accepted was written, if its heads are those of strings in their places. -/
theorem eq_write_of_decode {b : Bytes} (hb : b = Head.write 5 3 ++ Fields.writeEntries
      (entries name₁ type name₂ sealedInner name₃ confirmation)) (hfits : Fits b)
    (hname₁ : name₁.length = 11) (hname₂ : name₂.length = 7) (hname₃ : name₃.length = 24)
    (h : decodeMessage expected 3 b = .ok m) :
    b = Wire.write m ∧ m = { messageType := expected, sealedInner, confirmation } := by
  have hparts : Fits type ∧ Fits sealedInner ∧ Fits confirmation := by
    simp only [hb, Fits, Fields.writeEntries, entries, writeString, List.flatMap_cons,
      List.flatMap_nil, List.length_append, List.length_nil] at hfits ⊢
    omega
  obtain ⟨htype, hinner, hconfirmation⟩ := hparts
  obtain ⟨rfl, rfl, rfl⟩ := names_of_decode hname₁ hname₂ hname₃ htype hinner hconfirmation (hb ▸ h)
  -- the type was read, so it is a text
  obtain ⟨values, rest, hread⟩ := exists_values_of_decode h
  have hread : view (fields.read maxDepth) (Head.write 5 3 ++
      (writeText "MessageType" ++ (writeString 3 type ++ Fields.writeEntries
        [(Bytes.ofString "AEAD_ct", writeString 2 sealedInner),
          (Bytes.ofString "AEAD_ct_key_confirmation", writeString 2 confirmation)]))) =
      some (values, rest) := by
    rw [← hread, hb]
    rfl
  obtain ⟨s, _, hs⟩ := Fields.exists_value_of_read (by decide) (by decide) hread
  rw [Reader.view_text_string (.inr rfl) htype] at hs
  obtain ⟨s, hs, -⟩ := Option.map_eq_some_iff.mp hs
  obtain rfl := Bytes.ofString_of_toString? hs
  have hwrite : b = Wire.write { messageType := s, sealedInner, confirmation : Message3 } := by
    rw [hb]
    simp [Wire.write, writeRecord, writeText, writeBytes, Fields.writeEntries, entries, writeString]
  rw [hwrite] at h hfits ⊢
  -- and it is the expected type
  have htypeOf := (Wire.announced_message3 hfits).messageTypeOf_eq hfits
  obtain rfl := Option.some.inj (Except.ok.inj
    (htypeOf.symm.trans (messageTypeOf_of_decodeMessage h)))
  obtain rfl := Except.ok.inj ((decode_of_decodeMessage h).symm.trans
    (Wire.roundTrips_message3.decode_eq_ok hfits))
  exact ⟨rfl, rfl⟩

/-- The pieces with the same heads are strings in their places. -/
theorem exists_entries {pieces' : List (Bytes × Bytes)}
    (hlengths : pieces'.map (fun x => (x.1.length, x.2.length)) =
      m.pieces.map (fun x => (x.1.length, x.2.length)))
    (hheads : pieces'.map Prod.fst = m.pieces.map Prod.fst) :
    ∃ name₁ type name₂ sealedInner name₃ confirmation,
      glue pieces' = Head.write 5 3 ++ Fields.writeEntries
        (entries name₁ type name₂ sealedInner name₃ confirmation) ∧
      name₁.length = 11 ∧ name₂.length = 7 ∧ name₃.length = 24 := by
  have hnames : (Bytes.ofString "MessageType").length = 11 ∧
      (Bytes.ofString "AEAD_ct").length = 7 ∧
      (Bytes.ofString "AEAD_ct_key_confirmation").length = 24 := by decide
  obtain ⟨hname₁, hname₂, hname₃⟩ := hnames
  simp only [pieces, List.map_cons, List.map_nil, List.map_eq_cons_iff,
    List.map_eq_nil_iff] at hheads
  obtain ⟨⟨_, s₀⟩, _, rfl, rfl, ⟨_, name₁⟩, _, rfl, rfl, ⟨_, type⟩, _, rfl, rfl, ⟨_, name₂⟩, _, rfl,
    rfl, ⟨_, inner⟩, _, rfl, rfl, ⟨_, name₃⟩, _, rfl, rfl, ⟨_, confirmation⟩, _, rfl, rfl, rfl⟩ :=
    hheads
  simp only [pieces, List.map_cons, List.map_nil, List.cons.injEq, Prod.mk.injEq, true_and,
    and_true, List.length_nil, List.length_eq_zero_iff] at hlengths
  obtain ⟨rfl, h₁, htype, h₂, hinner, h₃, hconfirmation⟩ := hlengths
  refine ⟨name₁, type, name₂, inner, name₃, confirmation, ?_, h₁.trans hname₁, h₂.trans hname₂,
    h₃.trans hname₃⟩
  simp only [glue, Fields.writeEntries, entries, writeString, h₁, htype, h₂, hinner, h₃,
    hconfirmation, List.flatMap_cons, List.flatMap_nil, List.append_assoc, List.append_nil]

/-- If a changed byte goes unnoticed, the strings are as they were. -/
theorem respelled_of_decode {m' : Message3} (hfits : Fits (Wire.write m))
    (hone : OneOff (Wire.write m) b) (h : decodeMessage m.messageType 3 b = .ok m')
    (hinner : m'.sealedInner = m.sealedInner) (hconfirmation : m'.confirmation = m.confirmation) :
    m.Respelled b := by
  have hfits' : Fits b := by
    rw [Fits, ← hone.length_eq]
    exact hfits
  have hchanged := hone
  rw [write_eq] at hchanged
  obtain ⟨pieces', rfl, hlengths, hstrings | hheads⟩ := hchanged.glue
  · have hsizes := congrArg (List.map Prod.fst) hlengths
    rw [List.map_map, List.map_map] at hsizes
    exact ⟨pieces', hstrings, hsizes, rfl⟩
  · -- the heads are the same, so all would be as it was
    obtain ⟨_, _, _, _, _, _, hb, h₁, h₂, h₃⟩ := exists_entries hlengths hheads
    obtain ⟨heq, rfl⟩ := eq_write_of_decode hb hfits' h₁ h₂ h₃ h
    obtain rfl := hinner
    obtain rfl := hconfirmation
    exact absurd heq.symm hone.ne

/-- A message 3 with its type as a byte string. -/
def respell (m : Message3) : Bytes := writeRecord [
  ("MessageType", writeBytes (Bytes.ofString m.messageType)),
  ("AEAD_ct", writeBytes m.sealedInner), ("AEAD_ct_key_confirmation", writeBytes m.confirmation)]

theorem writeBytes_type (hm : m.messageType = "M3") :
    writeBytes (Bytes.ofString m.messageType) = 0x42 :: Bytes.ofString "M3" := by
  rw [hm]
  decide

/-- The head of the type has one byte, and it is another one. -/
theorem oneOff_respell (hm : m.messageType = "M3") : OneOff (Wire.write m) m.respell := by
  have htext : writeText m.messageType = 0x62 :: Bytes.ofString "M3" := by
    rw [hm]
    decide
  have hbytes := writeBytes_type hm
  refine ⟨Head.write 5 3 ++ writeText "MessageType", 0x62, 0x42, Bytes.ofString "M3" ++
    (writeText "AEAD_ct" ++ writeBytes m.sealedInner ++
      (writeText "AEAD_ct_key_confirmation" ++ writeBytes m.confirmation)), by decide, ?_, ?_⟩
  · simp [Wire.write, writeRecord, htext]
  · simp [respell, writeRecord, hbytes]

/-- It is read as if the type were a text. -/
theorem decode_respell (hm : m.messageType = "M3") (hfits : Fits (Wire.write m)) :
    decodeMessage m.messageType 3 m.respell = .ok m := by
  have hparts := Fits.of_writeRecord hfits
  simp only [List.forall_mem_cons] at hparts
  obtain ⟨-, hinner, hconfirmation, -⟩ := hparts
  have htext : ∀ depth, Takes (view (Reader.text depth))
      (writeBytes (Bytes.ofString m.messageType)) m.messageType := by
    rw [hm]
    exact Reader.takes_text_bytes (by decide)
  -- what claims the type is read as an optional text, which is no null here
  have hclaim : Takes (view (Reader.optional Reader.text 126))
      (writeBytes (Bytes.ofString m.messageType)) (some m.messageType) := by
    have h := htext 126
    rw [writeBytes_type hm] at h ⊢
    exact Reader.takes_optional (by decide) h
  have htypeOf : messageTypeOf m.respell = .ok (some m.messageType) := by
    have hread := @Fields.takes_read_one _ 126 "MessageType" (some none) none _ _ _
      [("AEAD_ct", writeBytes m.sealedInner),
        ("AEAD_ct_key_confirmation", writeBytes m.confirmation)] hclaim (by decide)
      (show 3 < Cbor.sizeLimit by decide) ?_
    · exact Cbor.decode_eq_ok (Cbor.takes_bind_pure hread fun _ _ => rfl)
    · simp only [List.forall_mem_cons]
      exact ⟨⟨by decide, by decide, Reader.takes_skip_bytes hinner _⟩,
        ⟨by decide, by decide, Reader.takes_skip_bytes hconfirmation _⟩, nofun⟩
  have hdecode : Wire.decode m.respell = .ok m := by
    refine Cbor.decode_eq_ok (Fields.takes_record (m.messageType, m.sealedInner, m.confirmation, ())
      rfl (by decide) ?_)
    exact ⟨rfl, htext _, rfl, Reader.takes_bytes hinner _, rfl, Reader.takes_bytes hconfirmation _,
      trivial⟩
  simp only [decodeMessage]
  rw [htypeOf]
  dsimp only
  rw [if_pos rfl, hdecode]

end Message3

/-! ## What is assumed -/

variable {ρ : Type} {S : Suite ρ}

/-- The length of a message 3 can be written. -/
theorem Initiator.Run.fits_message3 (hsized : S.Sized) (i : Initiator.Run S) : Fits i.message3 := by
  have hsecond := Encapsulation.sized_of_yields hsized.toEncapsulates i.accepted.created
  have hinner := Envelope.length_of_yields hsized.tagged i.accepted.encrypted
  have hconfirmation := Envelope.length_of_yields hsized.tagged i.accepted.confirmed
  rw [hsized.hash] at hconfirmation
  have hle := hsecond.length_inner_le
  exact Message3.fits (by omega) hconfirmation

/-- Of a message 3, no ciphertext opens but those that were sent. -/
structure Tamperproof (i : Initiator.Run S) {r : Responder.Run S} (f : Responder.Finish r)
    (m : Message3) : Prop where
  /-- the inner layer opens only if it is the one that was sent -/
  inner : ∀ plain, Envelope.decrypt S "message 3" f.accepted.handshakeKeys.toResponder
    m.sealedInner = .ok plain → m.sealedInner = i.accepted.sealedInner
  /-- and so does the confirmation -/
  confirmation : ∀ plain, Envelope.decrypt S "message 3 key confirmation"
    f.accepted.keys.confirmToResponder m.confirmation = .ok plain →
      m.confirmation = i.accepted.confirmation

/-! ## What the responder accepts -/

namespace Responder.Accepted

variable {r : Responder} {handshake : Handshake} {b b' : Bytes}

/-- The keys follow from the inner layer. -/
theorem keys_eq (a : r.Accepted S handshake b) (a' : r.Accepted S handshake b')
    (h : a'.message.sealedInner = a.message.sealedInner) :
    a'.handshakeKeys = a.handshakeKeys ∧ a'.keys = a.keys := by
  have hhandshake := Except.ok.inj (a'.derived.symm.trans a.derived)
  have hopened := a'.opened
  rw [hhandshake, h, a.opened] at hopened
  have hunderstood := a'.understood
  rw [← Except.ok.inj hopened, a.understood] at hunderstood
  have hrecovered := a'.recovered
  rw [← Except.ok.inj hunderstood, a.recovered] at hrecovered
  have hscheduled := a'.scheduled
  rw [← Except.ok.inj hrecovered, a.scheduled] at hscheduled
  exact ⟨hhandshake, (Except.ok.inj hscheduled).symm⟩

/-- Whatever has the same ciphertexts is accepted too. -/
theorem exists_of_decode (a : r.Accepted S handshake b) {m : Message3}
    (h : decodeMessage "M3" 3 b' = .ok m) (hinner : m.sealedInner = a.message.sealedInner)
    (hconfirmation : m.confirmation = a.message.confirmation) :
    ∃ a' : r.Accepted S handshake b', a'.message = m ∧ a'.keys = a.keys := by
  have hopened := a.opened
  have hconfirmed := a.confirmed
  rw [← hinner] at hopened hconfirmed
  rw [← hconfirmation] at hconfirmed
  exact ⟨{
    a with message := m, decoded := h, opened := hopened, confirmed := hconfirmed }, rfl, rfl⟩

end Responder.Accepted

namespace Untouched

variable {i : Initiator.Run S} {r : Responder.Run S} {f : Responder.Finish r} {b : Bytes}

/-- The responder finds what was sent. -/
theorem message_eq (hsized : S.Sized) (h : Untouched i f) :
    f.accepted.message = i.accepted.message3 := by
  have hfits := i.fits_message3 hsized
  have hsent : decodeMessage "M3" 3 i.message3 = .ok i.accepted.message3 :=
    decodeMessage_write Wire.roundTrips_message3 (Wire.announced_message3 hfits) hfits
  rw [← h.message3] at hsent
  exact Except.ok.inj (f.accepted.decoded.symm.trans hsent)

/-- What is accepted has the same ciphertexts. -/
theorem ciphertexts_eq (hsized : S.Sized) (h : Untouched i f)
    (a : r.responder.Accepted S r.handshake b) (htamperproof : Tamperproof i f a.message) :
    a.message.sealedInner = i.accepted.sealedInner ∧
      a.message.confirmation = i.accepted.confirmation ∧ a.keys = i.accepted.keys := by
  have hm := h.message_eq hsized
  have hhandshake := Except.ok.inj (a.derived.symm.trans f.accepted.derived)
  have hinner := htamperproof.inner a.payload (hhandshake ▸ a.opened)
  have hfound : a.message.sealedInner = f.accepted.message.sealedInner := by
    rw [hinner, hm]
    rfl
  obtain ⟨-, hkeys⟩ := f.accepted.keys_eq a hfound
  have hconfirmation := htamperproof.confirmation _ (hkeys ▸ a.confirmed)
  exact ⟨hinner, hconfirmation, hkeys.trans h.keys⟩

/-- And whatever has them is accepted, if the answer to it can be encrypted. -/
theorem yields_of_decode (hsized : S.Sized) (h : Untouched i f) {m : Message3}
    (hdecode : decodeMessage "M3" 3 b = .ok m) (hinner : m.sealedInner = i.accepted.sealedInner)
    (hconfirmation : m.confirmation = i.accepted.confirmation) {confirmation : Bytes} {g g' : ρ}
    (hanswered : Yields (Envelope.encrypt S i.accepted.keys.confirmToInitiator
      (S.hash (r.handshake.transcript ++ b))) g confirmation g') (now : UInt64) :
    ∃ timed message4 g',
      Yields (r.responder.receiveMessage3 S r.handshake b now) g (timed, message4) g' := by
  have hm := h.message_eq hsized
  obtain ⟨a, -, hkeys⟩ := f.accepted.exists_of_decode hdecode (hm ▸ hinner) (hm ▸ hconfirmation)
  rw [← hkeys.trans h.keys] at hanswered
  exact ⟨_, _, g', Responder.yields_receiveMessage3.mpr ⟨a, confirmation, hanswered, rfl, rfl⟩⟩

/-- The responder's confirmation opens as what the initiator waits for only if two transcripts
collide. -/
theorem collide_of_receiveMessage4 (hinverts : S.Inverts) (hsized : S.Sized) (h : Untouched i f)
    (hb : i.message3 ≠ b) {confirmation : Bytes} {g g' : ρ}
    (hyields : Yields (Envelope.encrypt S i.accepted.keys.confirmToInitiator
      (S.hash (r.handshake.transcript ++ b))) g confirmation g') {session : Session}
    (hreceived : i.awaited.receiveMessage4 S
      (Wire.write { messageType := "M4", confirmation : Message4 }) = .ok session) :
    Collide S (i.message1 ++ i.message2 ++ i.message3) (i.message1 ++ i.message2 ++ b) := by
  have hlength := Envelope.length_of_yields hsized.tagged hyields
  rw [hsized.hash] at hlength
  let sent : Message4 := { messageType := "M4", confirmation }
  have hfits : Fits (Wire.write sent) := Message4.fits hlength
  have hsent : decodeMessage "M4" 4 (Wire.write sent) = .ok sent :=
    decodeMessage_write Wire.roundTrips_message4 (Wire.announced_message4 hfits) hfits
  obtain ⟨m, hdecoded, hopened, -⟩ := Confirmation.receiveMessage4_eq_ok.mp hreceived
  obtain rfl := Except.ok.inj (hsent.symm.trans hdecoded)
  have hplain := Envelope.decrypt_of_yields hinverts hsized.tagged hyields "message 4"
  have hexpected : S.hash (i.decision.message1 ++ i.decision.message2 ++ i.message3) =
      S.hash (r.message1 ++ r.message2 ++ b) := Except.ok.inj (hopened.symm.trans hplain)
  obtain ⟨h1, h2⟩ := i.decision_eq
  rw [h1, h2, h.message1, h.message2] at hexpected
  exact ⟨fun heq => hb (List.append_cancel_left heq), hexpected⟩

end Untouched

/-- No changed ciphertext opens, so the responder accepts a message 3 with a changed byte exactly if
it still finds both ciphertexts and can encrypt its answer. The byte is one of a head then, and the
session is that of the handshake; but the initiator accepts what it is answered only if two
transcripts collide. -/
theorem corrupted_message3 (hinverts : S.Inverts) (hsized : S.Sized) {i : Initiator.Run S}
    {r : Responder.Run S} {f : Responder.Finish r} (h : Untouched i f) {corrupted : Bytes}
    (hone : OneOff i.message3 corrupted)
    (htamperproof : ∀ m, decodeMessage "M3" 3 corrupted = .ok m → Tamperproof i f m) :
    (∀ now g, (∃ timed message4 g',
        Yields (r.responder.receiveMessage3 S r.handshake corrupted now) g (timed, message4) g') ↔
      (∃ m : Message3, decodeMessage "M3" 3 corrupted = .ok m ∧
        m.sealedInner = i.accepted.sealedInner ∧ m.confirmation = i.accepted.confirmation) ∧
      ∃ confirmation g', Yields (Envelope.encrypt S i.accepted.keys.confirmToInitiator
        (S.hash (r.handshake.transcript ++ corrupted))) g confirmation g') ∧
    ∀ now g timed message4 g',
      Yields (r.responder.receiveMessage3 S r.handshake corrupted now) g (timed, message4) g' →
      i.accepted.message3.Respelled corrupted ∧
      timed.session = Session.start .responder r.responder.environment i.accepted.keys ∧
      ∀ session, i.awaited.receiveMessage4 S message4 = .ok session →
        Collide S (i.message1 ++ i.message2 ++ i.message3)
          (i.message1 ++ i.message2 ++ corrupted) := by
  constructor
  · intro now g
    constructor
    · rintro ⟨timed, message4, g', hyields⟩
      obtain ⟨a, confirmation, hanswered, -⟩ := Responder.yields_receiveMessage3.mp hyields
      obtain ⟨hinner, hconfirmation, hkeys⟩ :=
        h.ciphertexts_eq hsized a (htamperproof a.message a.decoded)
      rw [hkeys] at hanswered
      exact ⟨⟨a.message, a.decoded, hinner, hconfirmation⟩, confirmation, g', hanswered⟩
    · rintro ⟨⟨m, hdecode, hinner, hconfirmation⟩, confirmation, g', hanswered⟩
      exact h.yields_of_decode hsized hdecode hinner hconfirmation hanswered now
  · intro now g timed message4 g' hyields
    obtain ⟨a, confirmation, hconfirmed, rfl, rfl⟩ := Responder.yields_receiveMessage3.mp hyields
    obtain ⟨hinner, hconfirmation, hkeys⟩ :=
      h.ciphertexts_eq hsized a (htamperproof a.message a.decoded)
    rw [hkeys] at hconfirmed ⊢
    refine ⟨?_, rfl, ?_⟩
    · exact Message3.respelled_of_decode (i.fits_message3 hsized) hone a.decoded hinner
        hconfirmation
    · intro session hreceived
      exact h.collide_of_receiveMessage4 hinverts hsized hone.ne hconfirmed hreceived

/-- In every such handshake there is a changed byte that the responder does not notice. -/
theorem Untouched.respelled_accepted (hsized : S.Sized) {i : Initiator.Run S} {r : Responder.Run S}
    {f : Responder.Finish r} (h : Untouched i f) (hserves : S.Serves 33) (now : UInt64) (g : ρ) :
    OneOff i.message3 i.accepted.message3.respell ∧
    decodeMessage "M3" 3 i.accepted.message3.respell = .ok i.accepted.message3 ∧
    (∃ confirmation g', Yields (Envelope.encrypt S i.accepted.keys.confirmToInitiator
      (S.hash (r.handshake.transcript ++ i.accepted.message3.respell))) g confirmation g') ∧
    ∃ timed message4 g', Yields (r.responder.receiveMessage3 S r.handshake
      i.accepted.message3.respell now) g (timed, message4) g' := by
  have hdecode := Message3.decode_respell (m := i.accepted.message3) rfl (i.fits_message3 hsized)
  obtain ⟨hkey, -⟩ := Envelope.yields_encrypt.mp f.confirmed
  have hhash : (S.hash (r.handshake.transcript ++ i.accepted.message3.respell)).length < 33 := by
    rw [hsized.hash]
    decide
  obtain ⟨confirmation, g', hanswered⟩ :=
    Envelope.exists_encrypt hserves (h.keys ▸ hkey) g hhash
  exact ⟨Message3.oneOff_respell rfl, hdecode, ⟨confirmation, g', hanswered⟩,
    h.yields_of_decode hsized hdecode rfl rfl hanswered now⟩

/-- Nothing is forged if the ciphertexts are those that were sent. -/
theorem tamperproof_sent (i : Initiator.Run S) {r : Responder.Run S} (f : Responder.Finish r) :
    Tamperproof i f i.accepted.message3 := ⟨fun _ _ => rfl, fun _ _ => rfl⟩

/-- The sample parties establish a session on a message 3 with a changed byte. -/
theorem corrupted_message3_sample :
    let kyber := Kyber.generate (Bytes.ofNat 64 1)
    let S := Suite.sample (Kyber.encapsulate kyber.1 (oneBytes 32).toList)
    ∃ (i : Initiator.Run S) (r : Responder.Run S) (f : Responder.Finish r) (corrupted : Bytes)
      (timed : TimedSession) (message4 : Bytes) (g' : Generator),
      S.Inverts ∧ S.Sized ∧ Untouched i f ∧ OneOff i.message3 corrupted ∧
      (∀ m, decodeMessage "M3" 3 corrupted = .ok m → Tamperproof i f m) ∧
      Yields (r.responder.receiveMessage3 S r.handshake corrupted 1600) (Generator.ofSeed 7)
        (timed, message4) g' ∧
      i.accepted.message3.Respelled corrupted ∧
      timed.session = Session.start .responder r.responder.environment i.accepted.keys := by
  intro kyber S
  have honest := honest_sample (Kyber.length_generate (Bytes.ofNat 64 1)) rfl (Generator.ofSeed 7)
  obtain ⟨i, r, f, -, h, -⟩ := honest.exists_untouched (Generator.ofSeed 7)
  obtain ⟨hone, hdecode, hanswered, -⟩ :=
    h.respelled_accepted honest.sized (Suite.sample_serves 33) 1600 (Generator.ofSeed 7)
  have htamperproof : ∀ m, decodeMessage "M3" 3 i.accepted.message3.respell = .ok m →
      Tamperproof i f m := by
    intro m hm
    obtain rfl := Except.ok.inj (hdecode.symm.trans hm)
    exact tamperproof_sent i f
  obtain ⟨haccepts, hsession⟩ :=
    corrupted_message3 honest.inverts honest.sized h hone htamperproof
  obtain ⟨timed, message4, g', hyields⟩ :=
    (haccepts 1600 (Generator.ofSeed 7)).mpr ⟨⟨_, hdecode, rfl, rfl⟩, hanswered⟩
  obtain ⟨hrespelled, hstart, -⟩ := hsession _ _ _ _ _ hyields
  exact ⟨i, r, f, _, timed, message4, g', honest.inverts, honest.sized, h, hone, htamperproof,
    hyields, hrespelled, hstart⟩

/-- So it is not true that every changed byte is noticed, although no ciphertext is forged and no
hash collides. -/
theorem not_corruption_noticed :
    let kyber := Kyber.generate (Bytes.ofNat 64 1)
    let S := Suite.sample (Kyber.encapsulate kyber.1 (oneBytes 32).toList)
    ¬ ∀ (i : Initiator.Run S) (r : Responder.Run S) (f : Responder.Finish r) (corrupted : Bytes),
      Untouched i f → OneOff i.message3 corrupted →
      (∀ m : Message3, decodeMessage "M3" 3 corrupted = .ok m → Tamperproof i f m ∧
        ¬ Collide S (i.message1 ++ i.message2 ++ i.accepted.sealedInner)
          (r.message1 ++ r.message2 ++ m.sealedInner)) →
      ∀ now g timed message4 g',
        ¬ Yields (r.responder.receiveMessage3 S r.handshake corrupted now) g (timed, message4)
          g' := by
  intro kyber S hnoticed
  have honest := honest_sample (Kyber.length_generate (Bytes.ofNat 64 1)) rfl (Generator.ofSeed 7)
  obtain ⟨i, r, f, -, h, -⟩ := honest.exists_untouched (Generator.ofSeed 7)
  obtain ⟨hone, hdecode, -, timed, message4, g', hyields⟩ :=
    h.respelled_accepted honest.sized (Suite.sample_serves 33) 1600 (Generator.ofSeed 7)
  refine hnoticed i r f _ h hone ?_ _ _ _ _ _ hyields
  intro m hm
  obtain rfl := Except.ok.inj (hdecode.symm.trans hm)
  refine ⟨tamperproof_sent i f, ?_⟩
  rw [h.message1, h.message2]
  exact fun hcollide => hcollide.1 rfl

end SealedTunnel
