import SealedTunnel.Proofs.Cbor.Skipping
import SealedTunnel.Proofs.Channel.Wire

/-!
# The type of a message

A message is read twice: at first only for the type that it claims, where all else is skipped, and
then as a record of the expected type. Both readings see the same entries, so they find the same
type.

* `typeField` — the record that is looked for at first.
* `follows_entry`, `agrees_read` — the first reading beside the second one, entry by entry and as a
  whole.
* `Wire.LedByType` — records that start with their type; `LedByType.messageType_eq`.
* `decodeMessage_strict` — what is accepted, for each type of message.
-/

namespace SealedTunnel

open Cbor (view view_eq_some view_bind_eq_some outcome_eq_some Fields Reader Slots Values Count
  Takes maxDepth)
open Cbor.Fields (exists_key put_zero_eq_some put_succ_eq_some view_entry_eq_some skippable_put
  readElements_cons_eq_some)
open Cbor.Reader (text optional Skippable)

/-- The record that a message is read as for its type only. -/
def typeField : Fields [Option String] := .cons "MessageType" (some none) none (optional text) .nil

theorem messageTypeOf_eq (b : Bytes) :
    messageTypeOf b = Cbor.decode (typeField.read.map Prod.fst) b := rfl

/-! ## Two readings of a record -/

section Readings

variable {αs : List Type} {fields : Fields αs} {depth : Nat} {input rest : Bytes}

/-- A value that is there is not null. -/
theorem view_optional_text {s : String} (h : view (text depth) input = some (s, rest)) :
    view (optional text depth) input = some (some s, rest) := by
  obtain ⟨hlt, htext⟩ := view_eq_some.mp h
  cases input with
  | nil => exact nomatch Nat.not_lt_zero _ hlt
  | cons x input =>
    by_cases hx : x = 0xf6
    · subst hx
      cases depth <;> exact nomatch htext
    · refine view_eq_some.mpr ⟨hlt, (if_neg hx).trans ?_⟩
      exact bind_eq_ok.mpr ⟨_, htext, rfl⟩

/-- The slot of the type says the same in both readings. -/
def SameType (slots : Slots (String :: αs)) (slots' : Slots [Option String]) : Prop :=
  slots'.1 = slots.1.map some

/-- Either a key is the one of the type in both readings, or it is in neither. A number that is a
field of the whole record is none in the first reading, where there is one field only. -/
theorem index_cases (fields : Fields αs) (k : Nat ⊕ Bytes) :
    k.elim id (required "MessageType" text fields).indexOf = 0 ∧ k.elim id typeField.indexOf = 0 ∨
      ∃ i j, k.elim id (required "MessageType" text fields).indexOf = i + 1 ∧
        k.elim id typeField.indexOf = j + 1 := by
  cases k with
  | inl n =>
    cases n with
    | zero => exact .inl ⟨rfl, rfl⟩
    | succ n => exact .inr ⟨n, n, rfl, rfl⟩
  | inr b =>
    by_cases hb : Bytes.ofString "MessageType" = b
    · exact .inl ⟨if_pos hb, if_pos hb⟩
    · exact .inr ⟨_, _, if_neg hb, if_neg hb⟩

/-- The value of the type is read in both readings, -/
theorem follows_type {slots slots₁ : Slots (String :: αs)} {slots' : Slots [Option String]}
    (hsame : SameType slots slots')
    (h : view ((required "MessageType" text fields).put 0 slots depth) input =
      some (slots₁, rest)) :
    ∃ slots₁', SameType slots₁ slots₁' ∧
      view (typeField.put 0 slots' depth) input = some (slots₁', rest) := by
  obtain ⟨found, slots⟩ := slots
  obtain ⟨found', ⟨⟩⟩ := slots'
  obtain rfl : found' = found.map some := hsame
  cases found with
  | some s => exact nomatch h
  | none =>
    obtain ⟨s, hs, rfl⟩ := put_zero_eq_some.mp h
    exact ⟨(some (some s), ()), rfl, put_zero_eq_some.mpr ⟨some s, view_optional_text hs, rfl⟩⟩

/-- and any other value is skipped in the first one. -/
theorem follows_other (hfields : fields.AllSkippable) {i : Nat} (j : Nat)
    {slots slots₁ : Slots (String :: αs)} {slots' : Slots [Option String]}
    (hsame : SameType slots slots')
    (h : view ((required "MessageType" text fields).put (i + 1) slots depth) input =
      some (slots₁, rest)) :
    SameType slots₁ slots' ∧
      view (typeField.put (j + 1) slots' depth) input = some (slots', rest) := by
  obtain ⟨found, slots⟩ := slots
  obtain ⟨slots₂, hslots, rfl⟩ := put_succ_eq_some.mp h
  have hskip := skippable_put hfields i slots _ _ _ _ hslots
  exact ⟨hsame, put_succ_eq_some.mpr ⟨(), hskip, rfl⟩⟩

/-- So an entry that is read may be read for the type. -/
theorem follows_entry (hfields : fields.AllSkippable) {slots slots₁ : Slots (String :: αs)}
    {slots' : Slots [Option String]} (hsame : SameType slots slots')
    (h : view (((required "MessageType" text fields).key.andThen
      ((required "MessageType" text fields).put · slots)) depth) input = some (slots₁, rest)) :
    ∃ slots₁', SameType slots₁ slots₁' ∧
      view ((typeField.key.andThen (typeField.put · slots')) depth) input =
        some (slots₁', rest) := by
  obtain ⟨i, middle, hkey, hput⟩ := view_entry_eq_some.mp h
  obtain ⟨k, rfl, hkeys⟩ := exists_key hkey
  obtain ⟨hindex, hindex'⟩ | ⟨i, j, hindex, hindex'⟩ := index_cases fields k
  · rw [hindex] at hput
    obtain ⟨slots₁', hsame₁, hput'⟩ := follows_type hsame hput
    exact ⟨slots₁', hsame₁,
      view_entry_eq_some.mpr ⟨_, middle, hkeys typeField, hindex'.symm ▸ hput'⟩⟩
  · rw [hindex] at hput
    obtain ⟨hsame₁, hput'⟩ := follows_other hfields j hsame hput
    exact ⟨slots', hsame₁,
      view_entry_eq_some.mpr ⟨_, middle, hkeys typeField, hindex'.symm ▸ hput'⟩⟩

/-- A map that is read shows its type. -/
theorem follows_entries (hfields : fields.AllSkippable) {count : Count} {messageType : String}
    {values : Values αs} (h : view ((required "MessageType" text fields).readEntries depth count)
      input = some ((messageType, values), rest)) :
    view (typeField.readEntries depth count) input = some ((some messageType, ()), rest) := by
  obtain ⟨slots, middle, hfold, h⟩ := view_bind_eq_some.mp h
  obtain ⟨_, h⟩ := outcome_eq_some.mp h
  obtain ⟨values', hclose, h⟩ := bind_eq_ok.mp h
  obtain ⟨rfl, rfl⟩ := Prod.mk.inj (Except.ok.inj h)
  -- on the entries: the slots stay the same as far as the type goes
  obtain ⟨slots', hsame, hfold'⟩ := Count.fold_follows (R := SameType)
    (fun _ _ _ _ _ hsame h => follows_entry hfields hsame h)
    (show SameType (required "MessageType" text fields).empty typeField.empty from rfl)
    (view_eq_some.mpr ⟨_, hfold⟩)
  obtain ⟨hle, hfold'⟩ := view_eq_some.mp hfold'
  obtain ⟨found, slots⟩ := slots
  obtain ⟨found', ⟨⟩⟩ := slots'
  obtain rfl : found' = found.map some := hsame
  cases found with
  | none => exact nomatch hclose
  | some s =>
    obtain ⟨_, -, hvalues⟩ := bind_eq_ok.mp hclose
    obtain ⟨rfl, rfl⟩ := Prod.mk.inj (Except.ok.inj hvalues)
    exact view_bind_eq_some.mpr ⟨_, ⟨_, hle⟩, hfold', rfl⟩

/-- Both readings of a map find the same type. -/
theorem agrees_entries (hfields : fields.AllSkippable) {count : Count} {messageType : String}
    {messageType? : Option String} {values : Values αs} {rest' : Bytes}
    (h : view ((required "MessageType" text fields).readEntries depth count) input =
      some ((messageType, values), rest))
    (h' : view (typeField.readEntries depth count) input = some ((messageType?, ()), rest')) :
    messageType? = some messageType := by
  have heq := h'.symm.trans (follows_entries hfields h)
  exact (Prod.mk.inj (Prod.mk.inj (Option.some.inj heq)).1).1

/-- So do those of an array, where it comes first. -/
theorem agrees_elements {count : Count} {messageType : String} {messageType? : Option String}
    {values : Values αs} {rest' : Bytes}
    (h : view ((required "MessageType" text fields).readElements depth count) input =
      some ((messageType, values), rest))
    (h' : view (typeField.readElements depth count) input = some ((messageType?, ()), rest')) :
    messageType? = some messageType := by
  -- neither reading accepts an array that ends before its type
  obtain ⟨-, habsent, -⟩ | ⟨-, middle, ha, -⟩ := readElements_cons_eq_some.mp h
  · exact nomatch habsent
  obtain ⟨-, habsent, -⟩ | ⟨-, middle', ha', -⟩ := readElements_cons_eq_some.mp h'
  · exact nomatch habsent
  exact (Prod.mk.inj (Option.some.inj (ha'.symm.trans (view_optional_text ha)))).1

/-- Both readings of a record find the same type. -/
theorem agrees_read (hfields : fields.AllSkippable) {messageType : String}
    {messageType? : Option String} {values : Values αs} {rest' : Bytes}
    (h : view ((required "MessageType" text fields).read depth) input =
      some ((messageType, values), rest))
    (h' : view (typeField.read depth) input = some ((messageType?, ()), rest')) :
    messageType? = some messageType := by
  obtain ⟨⟨head, depth'⟩, middle, hhead, h⟩ := view_bind_eq_some.mp h
  obtain ⟨⟨head', depth''⟩, middle', hhead', h'⟩ := view_bind_eq_some.mp h'
  -- the head is the same in both
  cases Except.ok.inj (hhead.symm.trans hhead')
  cases head <;> cases depth'
  case map.succ n depth =>
    exact agrees_entries hfields ((Reader.outcome_behind middle _).symm.trans h)
      ((Reader.outcome_behind middle _).symm.trans h')
  case entries.succ depth =>
    exact agrees_entries hfields ((Reader.outcome_behind middle _).symm.trans h)
      ((Reader.outcome_behind middle _).symm.trans h')
  case array.succ n depth =>
    exact agrees_elements ((Reader.outcome_behind middle _).symm.trans h)
      ((Reader.outcome_behind middle _).symm.trans h')
  case elements.succ depth =>
    exact agrees_elements ((Reader.outcome_behind middle _).symm.trans h)
      ((Reader.outcome_behind middle _).symm.trans h')
  all_goals exact nomatch h

end Readings

/-! ## Types of messages -/

section Types

variable {α : Type} [Wire α] {messageType : α → String} {b : Bytes}

/-- What is decoded leaves nothing. -/
theorem view_of_decode {β : Type} {r : Reader β} {a : β} (h : Cbor.decode r b = .ok a) :
    view (r maxDepth) b = some (a, []) := by
  obtain ⟨⟨a', rest⟩, hread, h⟩ := bind_eq_ok.mp h
  obtain ⟨rest, hlt⟩ := rest
  by_cases hrest : rest = []
  · subst hrest
    obtain rfl := Except.ok.inj h
    exact view_eq_some.mpr ⟨hlt, hread⟩
  · exact nomatch (if_neg hrest).symm.trans h

/-- The records of a type start with a message type, and what follows it may be skipped. -/
def Wire.LedByType (messageType : α → String) : Prop :=
  ∃ (αs : List Type) (fields : Fields αs) (make : Values (String :: αs) → α),
    fields.AllSkippable ∧
      (Wire.read : Reader α) = (required "MessageType" text fields).read.map make ∧
      ∀ values, messageType (make values) = values.1

/-- The type that was seen at first is the one in the message. -/
theorem Wire.LedByType.messageType_eq (hled : Wire.LedByType messageType)
    {messageType? : Option String} {m : α} (hfirst : messageTypeOf b = .ok messageType?)
    (hsecond : Wire.decode b = .ok m) : messageType? = some (messageType m) := by
  obtain ⟨αs, fields, make, hfields, hread, htype⟩ := hled
  have hsecond := view_of_decode hsecond
  rw [hread] at hsecond
  obtain ⟨values, hvalues, rfl⟩ := Reader.view_map_eq_some.mp hsecond
  obtain ⟨⟨type?, ⟨⟩⟩, htypes, rfl⟩ := Reader.view_map_eq_some.mp
    (view_of_decode ((messageTypeOf_eq b).symm.trans hfirst))
  rw [htype]
  exact agrees_read hfields hvalues htypes

theorem skippable_curvePoint : Skippable (Wire.read : Reader CurvePoint) := by
  refine Skippable.map (Cbor.Fields.skippable_read ?_) _
  exact ⟨Reader.skippable_text, Reader.skippable_bytes, Reader.skippable_bytes, trivial⟩

theorem ledByType_message1 : Wire.LedByType Message1.messageType := by
  refine ⟨_, _, _, ?_, rfl, fun _ => rfl⟩
  exact ⟨skippable_curvePoint, Reader.skippable_bytes, trivial⟩

theorem ledByType_message2 : Wire.LedByType Message2.messageType := by
  refine ⟨_, _, _, ?_, rfl, fun _ => rfl⟩
  exact ⟨skippable_curvePoint, Reader.skippable_bytes, Reader.skippable_bytes, trivial⟩

theorem ledByType_message3 : Wire.LedByType Message3.messageType := by
  refine ⟨_, _, _, ?_, rfl, fun _ => rfl⟩
  exact ⟨Reader.skippable_bytes, Reader.skippable_bytes, trivial⟩

theorem ledByType_message4 : Wire.LedByType Message4.messageType := by
  refine ⟨_, _, _, ?_, rfl, fun _ => rfl⟩
  exact ⟨Reader.skippable_bytes, trivial⟩

theorem ledByType_errorMessage : Wire.LedByType ErrorMessage.messageType := by
  refine ⟨_, _, _, ?_, rfl, fun _ => rfl⟩
  exact ⟨Reader.skippable_natural _, Reader.skippable_text, trivial⟩

end Types

/-! ## What is accepted -/

section Decoding

variable {α β : Type} [Wire α] [Wire β] {messageType : α → String} {expected expected' : String}
  {number number' : Nat} {b b' : Bytes}

theorem local_typeField : (typeField.read.map Prod.fst).IsLocal := by
  refine Reader.IsLocal.map (Cbor.Fields.local_read ?_) _
  exact ⟨Reader.local_text.optional, trivial⟩

/-- A message that is accepted ends where its type has been seen. -/
theorem takes_of_decodeMessage {m : α} (h : decodeMessage expected number b = .ok m) :
    Takes (view (typeField.read.map Prod.fst maxDepth)) b (some expected) :=
  Cbor.decode_takes local_typeField (decodeMessage_eq_ok.mp h).1

/-- So no message that is accepted is the beginning of another one. -/
theorem eq_of_isPrefix {m : α} {m' : β} (h : decodeMessage expected number b = .ok m)
    (h' : decodeMessage expected' number' b' = .ok m') (hbegins : b <+: b') : b = b' := by
  obtain ⟨tail, rfl⟩ := hbegins
  exact ((takes_of_decodeMessage h).unique (takes_of_decodeMessage h')
    (List.append_nil _).symm).1

/-- How messages of a type are decoded. -/
structure Wire.Strict (messageType : α → String) : Prop where
  /-- a message is accepted if both readings of it find the expected type, and only then -/
  accepts : ∀ {expected number b} {m : α}, decodeMessage expected number b = .ok m ↔
    messageTypeOf b = .ok (some expected) ∧ Wire.decode b = .ok m ∧ messageType m = expected
  /-- any other is malformed, which is reported under its number -/
  refuses : ∀ {expected number b e},
    (decodeMessage expected number b : Except ChannelError α) = .error e →
      ∃ reason, e = .malformedMessage number reason

theorem Wire.LedByType.strict (hled : Wire.LedByType messageType) : Wire.Strict messageType where
  accepts := by
    refine decodeMessage_eq_ok.trans ⟨?_, fun ⟨hfirst, hsecond, _⟩ => ⟨hfirst, hsecond⟩⟩
    rintro ⟨hfirst, hsecond⟩
    exact ⟨hfirst, hsecond, (Option.some.inj (hled.messageType_eq hfirst hsecond)).symm⟩
  refuses := malformed_of_decodeMessage

end Decoding

/-- A message of any type is accepted only as what both readings of it find, and none that is
accepted is the beginning of another one. -/
theorem decodeMessage_strict :
    (Wire.Strict Message1.messageType ∧ Wire.Strict Message2.messageType ∧
      Wire.Strict Message3.messageType ∧ Wire.Strict Message4.messageType ∧
      Wire.Strict ErrorMessage.messageType) ∧
    ∀ {α β : Type} [Wire α] [Wire β] {expected expected' number number' b b'} {m : α} {m' : β},
      decodeMessage expected number b = .ok m → decodeMessage expected' number' b' = .ok m' →
      b <+: b' → b = b' :=
  ⟨⟨ledByType_message1.strict, ledByType_message2.strict, ledByType_message3.strict,
    ledByType_message4.strict, ledByType_errorMessage.strict⟩, eq_of_isPrefix⟩

/-- A message 4 as nobody writes it: a map of unknown length, with a number and a byte string as
keys, a tag, chunks and an entry for something else. -/
def looseMessage4 : Bytes :=
  [0xbf, 0x00, 0xc1, 0x42, 0x4d, 0x34, 0x41, 0x78, 0x81, 0xf6, 0x58, 0x18] ++
    Bytes.ofString "AEAD_ct_key_confirmation" ++ [0x5f, 0x41, 0x01, 0x41, 0x02, 0xff, 0xff]

theorem decodeMessage_strict_loose :
    (decodeMessage "M4" 4 looseMessage4 =
      .ok ({ messageType := "M4", confirmation := [1, 2] } : Message4)) ∧
    messageTypeOf looseMessage4 = .ok (some "M4") ∧
    ∀ (m : Message1) (tail : Bytes),
      decodeMessage "M1" 1 (looseMessage4 ++ tail) = .ok m → tail = [] := by
  have haccepted : decodeMessage "M4" 4 looseMessage4 =
      .ok ({ messageType := "M4", confirmation := [1, 2] } : Message4) := by decide +kernel
  obtain ⟨⟨-, -, -, hstrict, -⟩, hbegins⟩ := decodeMessage_strict
  refine ⟨haccepted, (hstrict.accepts.mp haccepted).1, fun m tail h => ?_⟩
  exact List.self_eq_append_right.mp (hbegins haccepted h (List.prefix_append _ _))

end SealedTunnel
