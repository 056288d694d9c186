import SealedTunnel.Http.Message
import SealedTunnel.Proofs.Checks
import SealedTunnel.Proofs.Text.Forms
import SealedTunnel.Proofs.Text.Utf8

/-!
# Header lines

What is written on the header lines of a message, and what is read there.

* `isPlain` — a character that may stand in values and reasons.
* `Writable`, `writtenHeaders_eq_ok` — when headers can be written, and which are.
* `IsWritten` — a header as it is written.
* `headers_written` — the lines that are written are read, if their values are plain and there is
  room for them.
* `headers_sound` — all that is read is plain, and there was room for it.
* `version_written` — so is the version.
* `readBody_written` — the body that is written is read.
* `headResult_eq_ok` — what is read of a head is not changed by the report of its faults.
-/

namespace SealedTunnel

namespace Http

/-! ## Characters -/

/-- A character that may stand in values and reasons: no control character other than a tab. -/
def isPlain (c : Char) : Bool := c.toNat == 0x09 || (0x20 ≤ c.toNat && c.toNat != 0x7f)

/-- A text without control characters other than tabs. -/
def IsPlain (s : String) : Prop := ∀ c ∈ s.toList, isPlain c = true

instance (s : String) : Decidable (IsPlain s) :=
  decidable_of_iff (s.toList.all isPlain = true) List.all_eq_true

/-- A byte below 128 is one of a value if its character is plain. -/
theorem isValue_eq {n : Nat} (h : n < 128) :
    isValue (UInt8.ofNat n) = (n == 0x09 || (0x20 ≤ n && n != 0x7f)) := by
  have hall : ∀ n < 128,
      isValue (UInt8.ofNat n) = (n == 0x09 || (0x20 ≤ n && n != 0x7f)) := by decide
  exact hall n h

/-- The bytes of a plain text are those of a value. -/
theorem isPlain_iff {s : String} : IsPlain s ↔ ∀ b ∈ Bytes.ofString s, isValue b = true := by
  have hlarge : ∀ b : UInt8, ¬ b < 128 → isValue b = true := by
    intro b hb
    have hle : 0x80 ≤ b := UInt8.not_lt.mp hb
    simp [isValue, hle]
  rw [Bytes.forall_mem_ofString hlarge]
  refine forall₂_congr fun c _ => ⟨fun h hlt => (isValue_eq hlt).trans h, fun h => ?_⟩
  by_cases hlt : c.toNat < 128
  · exact (isValue_eq hlt).symm.trans (h hlt)
  · simp only [isPlain, Bool.or_eq_true, Bool.and_eq_true, decide_eq_true_eq, bne_iff_ne]
    omega

/-- A text of ASCII characters. -/
def IsAscii (s : String) : Prop := ∀ c ∈ s.toList, c.toNat < 128

instance (s : String) : Decidable (IsAscii s) :=
  decidable_of_iff (s.toList.all (·.toNat < 128) = true) (by simp [IsAscii])

theorem IsAscii.lt_of_mem {s : String} (h : IsAscii s) : ∀ b ∈ Bytes.ofString s, b < 128 := by
  intro b hb
  rw [Bytes.ofString_eq] at hb
  obtain ⟨c, hc, hb⟩ := List.mem_flatMap.mp hb
  have hlt : c.toNat < 128 := h c hc
  rw [Bytes.utf8EncodeChar_of_lt hlt, List.mem_singleton] at hb
  rw [hb, UInt8.lt_iff_toNat_lt, UInt8.toNat_ofNat', Nat.mod_eq_of_lt (by omega)]
  exact hlt

/-- Such a text is read from its bytes, -/
theorem asciiText_ofString {s : String} (h : IsAscii s) : asciiText (Bytes.ofString s) = s := by
  have hchars : ∀ cs : List Char, (∀ c ∈ cs, c.toNat < 128) →
      (cs.flatMap String.utf8EncodeChar).map (fun x => Char.ofNat x.toNat) = cs := by
    intro cs hcs
    induction cs with
    | nil => rfl
    | cons c cs ih =>
      obtain ⟨hc, hcs⟩ := List.forall_mem_cons.mp hcs
      rw [List.flatMap_cons, Bytes.utf8EncodeChar_of_lt hc, List.map_append, ih hcs,
        List.map_singleton, UInt8.toNat_ofNat', Nat.mod_eq_of_lt (by omega), Char.ofNat_toNat]
      rfl
  rw [asciiText, Bytes.ofString_eq, hchars _ h, String.ofList_toList]

/-- bytes below 128 are those of their text, -/
theorem ofString_asciiText {bs : Bytes} (hbs : ∀ b ∈ bs, b < 128) :
    Bytes.ofString (asciiText bs) = bs := by
  have hnat : ∀ n < 128, (Char.ofNat n).toNat = n := by decide
  rw [Bytes.ofString_eq, asciiText, String.toList_ofList]
  induction bs with
  | nil => rfl
  | cons b bs ih =>
    obtain ⟨hb, hbs⟩ := List.forall_mem_cons.mp hbs
    have hchar : (Char.ofNat b.toNat).toNat = b.toNat := hnat _ hb
    have hlt : (Char.ofNat b.toNat).toNat < 128 := hchar.trans_lt hb
    rw [List.map_cons, List.flatMap_cons, ih hbs, Bytes.utf8EncodeChar_of_lt hlt, hchar,
      UInt8.ofNat_toNat, List.singleton_append]

/-- and what is read from bytes of a value is plain. -/
theorem asciiText_sound {bs : Bytes} (hlt : ∀ b ∈ bs, b < 128) (hbs : ∀ b ∈ bs, isValue b = true) :
    IsPlain (asciiText bs) ∧ IsAscii (asciiText bs) := by
  have hnat : ∀ n < 128, (Char.ofNat n).toNat = n := by decide
  have hmem : ∀ c ∈ (asciiText bs).toList, ∃ b ∈ bs, b.toNat = c.toNat := by
    intro c hc
    rw [asciiText, String.toList_ofList] at hc
    obtain ⟨b, hb, rfl⟩ := List.mem_map.mp hc
    exact ⟨b, hb, (hnat _ (hlt b hb)).symm⟩
  constructor
  · intro c hc
    obtain ⟨b, hb, heq⟩ := hmem c hc
    have hvalue := isValue_eq (n := b.toNat) (hlt b hb)
    rw [UInt8.ofNat_toNat, hbs b hb] at hvalue
    rw [isPlain, ← heq]
    exact hvalue.symm
  · intro c hc
    obtain ⟨b, hb, heq⟩ := hmem c hc
    exact heq ▸ hlt b hb

/-! ## What is written -/

/-- A header that can be written. -/
structure Writable (h : Header) : Prop where
  /-- its name may be written -/
  name : isHeaderName h.1 = true
  /-- it is not about the connection -/
  allowed : Text.lower h.1 ∉ connectionHeaders
  /-- its value stays on its line -/
  unbroken : ∀ c ∈ h.2.toList, c ≠ '\r' ∧ c ≠ '\n'

instance (h : Header) : Decidable (Writable h) :=
  decidable_of_iff (isHeaderName h.1 = true ∧ Text.lower h.1 ∉ connectionHeaders ∧
      h.2.toList.all (fun c => c ≠ '\r' ∧ c ≠ '\n') = true)
    ⟨fun ⟨hname, hallowed, hunbroken⟩ => ⟨hname, hallowed, by simpa using hunbroken⟩,
      fun hw => ⟨hw.name, hw.allowed, by simpa using hw.unbroken⟩⟩

/-- What is written of a header, if it is not dropped: its name in lower case, its value trimmed. -/
def form (h : Header) : Option Header :=
  if isDropped (Text.lower h.1) h.2 then none else some (Text.lower h.1, Text.trim h.2)

/-- What is written of headers. -/
def kept (headers : List Header) : List Header := headers.filterMap form

/-- The header that states the length of a body. -/
def lengthHeader (length : Nat) : Header := ("content-length", toString length)

theorem writtenHeader_eq_ok {h : Header} {written : Option Header} :
    writtenHeader h = .ok written ↔ Writable h ∧ form h = written := by
  obtain ⟨name, value⟩ := h
  have hform : (if isDropped (Text.lower name) value then .ok none
      else .ok (some (Text.lower name, Text.trim value))) =
      (.ok (form (name, value)) : Except Fault (Option Header)) := (apply_ite Except.ok ..).symm
  simp only [writtenHeader, refuse_eq_ok, hform, Except.ok.injEq]
  constructor
  · rintro ⟨hname, hallowed, hunbroken, hwritten⟩
    refine ⟨⟨eq_true_of_ne_false hname, hallowed, ?_⟩, hwritten⟩
    simpa using hunbroken
  · rintro ⟨hw, hwritten⟩
    refine ⟨ne_false_of_eq_true hw.name, hw.allowed, ?_, hwritten⟩
    simpa using hw.unbroken

/-- Headers are written if each of them can be. -/
theorem writtenHeaders_eq_ok {headers written : List Header} {length : Nat} :
    writtenHeaders headers length = .ok written ↔
      (∀ h ∈ headers, Writable h) ∧ kept headers ++ [lengthHeader length] = written := by
  have hmapM : ∀ forms, headers.mapM writtenHeader = .ok forms ↔
      (∀ h ∈ headers, Writable h) ∧ headers.map form = forms := by
    intro forms
    have heq : List.Forall₂ (fun h written => form h = written) headers forms ↔
        headers.map form = forms := by
      rw [← List.forall₂_map_left_iff, List.forall₂_eq_eq_eq]
    simp only [mapM_eq_ok, writtenHeader_eq_ok, List.forall₂_and_left, heq]
  simp only [writtenHeaders, bind_eq_ok, hmapM]
  constructor
  · rintro ⟨_, ⟨hw, rfl⟩, h⟩
    rw [List.filterMap_map] at h
    exact ⟨hw, Except.ok.inj h⟩
  · rintro ⟨hw, rfl⟩
    refine ⟨_, ⟨hw, rfl⟩, ?_⟩
    rw [List.filterMap_map]
    rfl

/-! ## Lines -/

/-- The line of a header. -/
def headerLine (h : Header) : Bytes := Bytes.ofString (h.1 ++ ": " ++ h.2) ++ [0x0d, 0x0a]

theorem writeMessage_eq (firstLine : String) (headers : List Header) (body : Bytes) :
    writeMessage firstLine headers body = Bytes.ofString firstLine ++ 0x0d :: 0x0a ::
      (headers.flatMap headerLine ++ 0x0d :: 0x0a :: body) := by
  rw [writeMessage]
  change Bytes.ofString firstLine ++ [0x0d, 0x0a] ++ headers.flatMap headerLine ++ [0x0d, 0x0a] ++
    body = _
  simp only [List.append_assoc, List.cons_append, List.nil_append]

/-- A scan for bytes of some kind stops at the first other one. -/
theorem scan {p : UInt8 → Bool} {xs : Bytes} (hxs : ∀ b ∈ xs, p b = true) {b : UInt8}
    (hb : p b = false) (ys : Bytes) :
    (xs ++ b :: ys).takeWhile p = xs ∧ (xs ++ b :: ys).dropWhile p = b :: ys := by
  rw [List.takeWhile_append_of_pos hxs, List.dropWhile_append_of_pos hxs]
  simp [hb]

/-- The first byte of an empty line. -/
def isLineEnd (b : UInt8) : Bool := b == 0x0d || b == 0x0a

theorem isLineEnd_of_isToken {b : UInt8} (h : isToken b = true) : isLineEnd b = false := by
  simp only [isLineEnd, Bool.or_eq_false_iff, beq_eq_false_iff_ne]
  constructor
  · rintro rfl
    exact Bool.false_ne_true h
  · rintro rfl
    exact Bool.false_ne_true h

/-! ### Names -/

theorem lt_of_isAlphanum {c : Char} (h : c.isAlphanum = true) : c.toNat < 128 := by
  simp only [Char.isAlphanum, Char.isAlpha, Char.isUpper, Char.isLower, Char.isDigit,
    Bool.or_eq_true, Bool.and_eq_true, decide_eq_true_eq, UInt32.le_iff_toNat_le, ge_iff_le] at h
  show c.val.toNat < 128
  have hZ : 'Z'.val.toNat = 90 := rfl
  have hz : 'z'.val.toNat = 122 := rfl
  have h9 : '9'.val.toNat = 57 := rfl
  omega

/-- A character that may stand in a header name that is written. -/
def isNameChar (c : Char) : Bool := c.isAlphanum || c == '-' || c == '_'

theorem isHeaderName_iff {name : String} :
    isHeaderName name = true ↔ name ≠ "" ∧ ∀ c ∈ name.toList, isNameChar c = true := by
  simp only [isHeaderName, isNameChar, Bool.and_eq_true, decide_eq_true_eq, List.all_eq_true]

/-- It is an ASCII character, its byte is that of a token, and its lower case may stand there
too. -/
theorem isNameChar_spec {c : Char} (h : isNameChar c = true) :
    c.toNat < 128 ∧ isToken (UInt8.ofNat c.toNat) = true ∧ isNameChar c.toLower = true := by
  have hlt : c.toNat < 128 := by
    simp only [isNameChar, Bool.or_eq_true, beq_iff_eq] at h
    rcases h with (h | rfl) | rfl
    · exact lt_of_isAlphanum h
    · decide
    · decide
  have hall : ∀ n < 128, isNameChar (Char.ofNat n) = true →
      isToken (UInt8.ofNat n) = true ∧ isNameChar (Char.ofNat n).toLower = true := by
    decide +kernel
  have hchar := hall c.toNat hlt
  rw [Char.ofNat_toNat] at hchar
  exact ⟨hlt, hchar h⟩

/-- A header as it is written. -/
structure IsWritten (h : Header) : Prop where
  /-- its name may be written -/
  name : isHeaderName h.1 = true
  /-- it is in lower case -/
  lower : Text.lower h.1 = h.1
  /-- its value has no blanks at the ends -/
  trimmed : Text.IsTrimmed h.2

theorem Writable.isWritten {h : Header} (hw : Writable h) :
    IsWritten (Text.lower h.1, Text.trim h.2) where
  name := by
    obtain ⟨hne, hchars⟩ := isHeaderName_iff.mp hw.name
    refine isHeaderName_iff.mpr ⟨fun hnil => hne ?_, fun c hc => ?_⟩
    · rw [Text.lower, ← String.toList_inj, String.toList_ofList, String.toList_empty,
        List.map_eq_nil_iff] at hnil
      exact String.toList_inj.mp hnil
    · rw [Text.lower, String.toList_ofList] at hc
      obtain ⟨c', hc', rfl⟩ := List.mem_map.mp hc
      exact (isNameChar_spec (hchars c' hc')).2.2
  lower := Text.lower_lower h.1
  trimmed := Text.trim_isTrimmed h.2

theorem lengthHeader_isWritten (length : Nat) : IsWritten (lengthHeader length) where
  name := by
    show isHeaderName "content-length" = true
    rfl
  lower := by
    show Text.lower "content-length" = "content-length"
    rfl
  trimmed := Text.toString_isTrimmed length

theorem lengthHeader_isPlain (length : Nat) : IsPlain (lengthHeader length).2 := by
  intro c hc
  have hdigit := Text.mem_toString hc
  simp only [Char.isDigit, Bool.and_eq_true, decide_eq_true_eq, UInt32.le_iff_toNat_le,
    ge_iff_le] at hdigit
  have hdigits : ∀ n < 58, 48 ≤ n → (n == 0x09 || (0x20 ≤ n && n != 0x7f)) = true := by decide
  exact hdigits c.toNat (Nat.lt_succ_of_le hdigit.2) hdigit.1

namespace IsWritten

variable {h : Header}

theorem isAscii (hw : IsWritten h) : IsAscii h.1 := fun c hc =>
  (isNameChar_spec ((isHeaderName_iff.mp hw.name).2 c hc)).1

theorem isToken (hw : IsWritten h) : ∀ b ∈ Bytes.ofString h.1, isToken b = true := by
  intro b hb
  rw [Bytes.ofString_eq] at hb
  obtain ⟨c, hc, hb⟩ := List.mem_flatMap.mp hb
  obtain ⟨hlt, htoken, -⟩ := isNameChar_spec ((isHeaderName_iff.mp hw.name).2 c hc)
  rw [Bytes.utf8EncodeChar_of_lt hlt, List.mem_singleton] at hb
  exact hb ▸ htoken

theorem ne_nil (hw : IsWritten h) : Bytes.ofString h.1 ≠ [] := by
  have hne := (isHeaderName_iff.mp hw.name).1
  exact fun hnil => hne (Bytes.ofString_injective hnil)

/-- Its line begins with the name, and is not empty. -/
theorem exists_cons (hw : IsWritten h) (rest : Bytes) :
    ∃ b bs, headerLine h ++ rest = b :: bs ∧ isLineEnd b = false := by
  obtain ⟨b, bs, hname⟩ := List.exists_cons_of_ne_nil hw.ne_nil
  have htoken : Http.isToken b = true := hw.isToken b (hname ▸ List.mem_cons_self)
  refine ⟨b, _, by rw [headerLine, Bytes.ofString_append, Bytes.ofString_append, hname]; rfl, ?_⟩
  exact isLineEnd_of_isToken htoken

end IsWritten

/-! ### Values -/

/-- The bytes of a character that is not blank are no gap. -/
theorem not_isGap {c : Char} (hc : Text.isBlank c = false) {b : UInt8}
    (hb : b ∈ String.utf8EncodeChar c) : isGap b = false := by
  by_contra hgap
  simp only [isGap, Bool.not_eq_false, Bool.or_eq_true, beq_iff_eq] at hgap
  have hblank : ∀ n, n = 0x20 ∨ n = 0x09 → Text.isBlank (Char.ofNat n) = true := by
    rintro n (rfl | rfl) <;> decide
  rcases hgap with rfl | rfl
  · have heq := (Bytes.mem_utf8EncodeChar (by decide)).mp hb
    have hgap := hblank c.toNat (.inl heq)
    rw [Char.ofNat_toNat, hc] at hgap
    cases hgap
  · have heq := (Bytes.mem_utf8EncodeChar (by decide)).mp hb
    have hgap := hblank c.toNat (.inr heq)
    rw [Char.ofNat_toNat, hc] at hgap
    cases hgap

/-- A trimmed text does not begin with a gap, -/
theorem dropWhile_isGap {s : String} (hs : Text.IsTrimmed s) {b : UInt8} (hb : isGap b = false)
    (rest : Bytes) :
    (Bytes.ofString s ++ b :: rest).dropWhile isGap = Bytes.ofString s ++ b :: rest := by
  cases hbytes : Bytes.ofString s with
  | nil => simp [hb]
  | cons x xs =>
    obtain ⟨c, hc, hx⟩ := Bytes.exists_head (congrArg List.head? hbytes)
    have hgap := not_isGap (hs.head c hc) hx
    simp [hgap]

/-- and does not end with one. -/
theorem rdropWhile_isGap {s : String} (hs : Text.IsTrimmed s) :
    (Bytes.ofString s).rdropWhile isGap = Bytes.ofString s := by
  refine List.rdropWhile_eq_self_iff.mpr fun hne => ?_
  obtain ⟨c, hc, hx⟩ := Bytes.exists_last (List.getLast?_eq_some_getLast hne)
  rw [not_isGap (hs.last c hc) hx]
  exact Bool.false_ne_true

/-- The line of a header is read up to the first byte that no value holds. -/
theorem header_headerLine {h : Header} (hw : IsWritten h) (rest : Bytes) :
    header (headerLine h ++ rest) = do
      let value := Bytes.ofString h.2 ++ 0x0d :: 0x0a :: rest
      let behind ← lineEnd .headerValue (value.dropWhile isValue)
      return ((Bytes.ofString h.1, (value.takeWhile isValue).rdropWhile isGap), behind) := by
  have hcolon : Bytes.ofString ": " = [0x3a, 0x20] := rfl
  have hline : headerLine h ++ rest = Bytes.ofString h.1 ++ 0x3a ::
      (0x20 :: (Bytes.ofString h.2 ++ 0x0d :: 0x0a :: rest)) := by
    simp only [headerLine, Bytes.ofString_append, hcolon, List.append_assoc, List.cons_append,
      List.nil_append]
  obtain ⟨hname, hbehind⟩ := scan hw.isToken (b := 0x3a) rfl
    (0x20 :: (Bytes.ofString h.2 ++ 0x0d :: 0x0a :: rest))
  have hgap : (0x20 :: (Bytes.ofString h.2 ++ 0x0d :: 0x0a :: rest)).dropWhile isGap =
      Bytes.ofString h.2 ++ 0x0d :: 0x0a :: rest :=
    dropWhile_isGap hw.trimmed (by decide) (0x0a :: rest)
  rw [header, hline, hname, hbehind]
  refine (if_neg hw.ne_nil).trans ?_
  rw [hgap]
  rfl

/-- The line of a plain header is read. -/
theorem header_written {h : Header} (hw : IsWritten h) (hplain : IsPlain h.2) (rest : Bytes) :
    header (headerLine h ++ rest) = .ok ((Bytes.ofString h.1, Bytes.ofString h.2), rest) := by
  obtain ⟨hvalue, hend⟩ := scan (isPlain_iff.mp hplain) (b := 0x0d) (by decide) (0x0a :: rest)
  rw [header_headerLine hw]
  dsimp only
  rw [hvalue, hend, rdropWhile_isGap hw.trimmed]
  rfl

/-- An empty line ends the headers, -/
theorem headers_of_end {b : UInt8} (hb : isLineEnd b = true) {room : Nat} {bs rest : Bytes}
    {raws : List RawHeader} : headers room (b :: bs) = .ok (raws, rest) ↔
      lineEnd .newLine (b :: bs) = .ok rest ∧ raws = [] := by
  have hheaders : headers room (b :: bs) =
      (lineEnd .newLine (b :: bs) >>= fun rest => .ok ([], rest)) := by
    simp only [isLineEnd, Bool.or_eq_true, beq_iff_eq] at hb
    obtain rfl | rfl := hb
    · exact headers.eq_2 room bs
    · exact headers.eq_3 room bs
  simp only [hheaders, bind_eq_ok, Except.ok.injEq, Prod.mk.injEq]
  constructor
  · rintro ⟨_, h, hraws, rfl⟩
    exact ⟨h, hraws.symm⟩
  · rintro ⟨h, rfl⟩
    exact ⟨_, h, rfl, rfl⟩

/-- any other line adds one if it is read, -/
theorem headers_eq_of_line {b : UInt8} (hb : isLineEnd b = false) (room : Nat) (bs : Bytes) :
    headers room (b :: bs) = do
      let (first, behind) ← header (b :: bs)
      match room with
      | 0 => .error (.invalid .tooManyHeaders)
      | room + 1 =>
        let (more, rest) ← headers room behind
        return (first :: more, rest) := by
  simp only [isLineEnd, Bool.or_eq_false_iff, beq_eq_false_iff_ne] at hb
  exact headers.eq_4 room (b :: bs) (fun h => nomatch h) (fun _ h => hb.1 (List.cons.inj h).1)
    (fun _ h => hb.2 (List.cons.inj h).1)

/-- and if there is room for it. -/
theorem headers_of_line {b : UInt8} (hb : isLineEnd b = false) {room : Nat} {bs rest : Bytes}
    {raws : List RawHeader} : headers room (b :: bs) = .ok (raws, rest) ↔
      ∃ first behind more room', header (b :: bs) = .ok (first, behind) ∧ room = room' + 1 ∧
        headers room' behind = .ok (more, rest) ∧ raws = first :: more := by
  rw [headers_eq_of_line hb, bind_eq_ok]
  constructor
  · rintro ⟨⟨first, behind⟩, hfirst, h⟩
    cases room with
    | zero => exact nomatch h
    | succ room =>
      obtain ⟨⟨more, rest'⟩, hmore, h⟩ := bind_eq_ok.mp h
      obtain ⟨hraws, rfl⟩ := Prod.mk.inj (Except.ok.inj h)
      exact ⟨first, behind, more, room, hfirst, rfl, hmore, hraws.symm⟩
  · rintro ⟨first, behind, more, room, hfirst, rfl, hmore, rfl⟩
    exact ⟨(first, behind), hfirst, bind_eq_ok.mpr ⟨(more, rest), hmore, rfl⟩⟩

/-- So are those of plain headers, if there is room for them. -/
theorem headers_written {hs : List Header} (hw : ∀ h ∈ hs, IsWritten h)
    (hplain : ∀ h ∈ hs, IsPlain h.2) {room : Nat} (hroom : hs.length ≤ room) (rest : Bytes) :
    headers room (hs.flatMap headerLine ++ 0x0d :: 0x0a :: rest) =
      .ok (hs.map fun h => (Bytes.ofString h.1, Bytes.ofString h.2), rest) := by
  induction hs generalizing room with
  | nil => exact (headers_of_end rfl).mpr ⟨rfl, rfl⟩
  | cons h hs ih =>
    obtain ⟨hh, hhs⟩ := List.forall_mem_cons.mp hw
    obtain ⟨hhplain, hhsplain⟩ := List.forall_mem_cons.mp hplain
    obtain _ | room := room
    · exact absurd hroom (Nat.not_succ_le_zero _)
    have hline := header_written hh hhplain (hs.flatMap headerLine ++ 0x0d :: 0x0a :: rest)
    have hmore := ih hhs hhsplain (Nat.le_of_succ_le_succ hroom)
    rw [List.flatMap_cons, List.append_assoc]
    obtain ⟨b, bs, hstart, hb⟩ := hh.exists_cons (hs.flatMap headerLine ++ 0x0d :: 0x0a :: rest)
    rw [hstart] at hline ⊢
    exact (headers_of_line hb).mpr ⟨_, _, _, room, hline, rfl, hmore, rfl⟩

/-- Each of them means what was written. -/
theorem readHeader_written {h : Header} (hw : IsWritten h) :
    readHeader (Bytes.ofString h.1, Bytes.ofString h.2) = .ok h := by
  rw [readHeader]
  simp only [Bytes.toString?_ofString, asciiText_ofString hw.isAscii, hw.lower, hw.trimmed.trim_eq]

theorem readHeaders_written {hs : List Header} (hw : ∀ h ∈ hs, IsWritten h) :
    (hs.map fun h => (Bytes.ofString h.1, Bytes.ofString h.2)).mapM readHeader = .ok hs := by
  rw [mapM_eq_ok, List.forall₂_map_left_iff, List.forall₂_same]
  exact fun h hh => readHeader_written (hw h hh)

/-- The protocol version that is written is read. -/
theorem version_written (rest : Bytes) :
    version (Bytes.ofString "HTTP/1.1" ++ rest) = .ok rest := by
  have hlength : (Bytes.ofString "HTTP/1.1").length = 8 := rfl
  have hlong : ¬ (Bytes.ofString "HTTP/1.1" ++ rest).length < 8 := by
    rw [List.length_append, hlength]
    omega
  rw [version, if_neg hlong, List.take_left' hlength, if_pos (.inr rfl), List.drop_left' hlength]

/-! ### The body -/

theorem mem_kept {headers : List Header} {h : Header} (hmem : h ∈ kept headers) :
    ∃ h' ∈ headers, isDropped (Text.lower h'.1) h'.2 = false ∧
      (Text.lower h'.1, Text.trim h'.2) = h := by
  obtain ⟨h', hh', hform⟩ := List.mem_filterMap.mp hmem
  rw [form] at hform
  split at hform
  · exact nomatch hform
  · rename_i hkept
    exact ⟨h', hh', Bool.eq_false_of_not_eq_true hkept, Option.some.inj hform⟩

/-- The headers that are written with the length of a body. -/
theorem isWritten_of_mem {headers : List Header} (hw : ∀ h ∈ headers, Writable h) {length : Nat}
    {h : Header} (hmem : h ∈ kept headers ++ [lengthHeader length]) : IsWritten h := by
  obtain hmem | hmem := List.mem_append.mp hmem
  · obtain ⟨h', hh', -, rfl⟩ := mem_kept hmem
    exact (hw h' hh').isWritten
  · exact List.mem_singleton.mp hmem ▸ lengthHeader_isWritten length

/-- The only length that is written is that of the body. -/
theorem statedLength_written (headers : List Header) {length : Nat} (h : length < lengthBound) :
    statedLength (kept headers ++ [lengthHeader length]) = .ok (some length) := by
  have hnone : (kept headers).filter (·.1 == "content-length") = [] := by
    refine List.filter_eq_nil_iff.mpr fun h hmem => ?_
    obtain ⟨h', -, hkept, rfl⟩ := mem_kept hmem
    exact Bool.not_eq_true _ ▸ (Bool.or_eq_false_iff.mp hkept).1
  have hfilter : (kept headers ++ [lengthHeader length]).filter (·.1 == "content-length") =
      [lengthHeader length] := by
    rw [List.filter_append, hnone]
    rfl
  rw [statedLength, hfilter]
  simp only [lengthHeader, Text.readNatural_toString h]

/-- So the body is read. -/
theorem readBody_written (headers : List Header) {body : Bytes} (h : body.length < lengthBound) :
    readBody (kept headers ++ [lengthHeader body.length]) body = .ok body := by
  rw [readBody, statedLength_written headers h]
  refine (if_neg (Nat.lt_irrefl _)).trans ?_
  rw [List.take_length]
  rfl

/-! ## What is read -/

theorem headResult_eq_ok {α : Type} {kind : Kind} {x : Except Stop α} {a : α} :
    headResult kind x = .ok a ↔ x = .ok a := by
  rw [headResult.eq_def]
  constructor
  · intro h
    split at h
    · exact congrArg Except.ok (Except.ok.inj h)
    · exact nomatch h
    · exact nomatch h
  · rintro rfl
    rfl

/-- All that is read as a value are bytes of a value. -/
theorem header_sound {input rest : Bytes} {raw : RawHeader} (h : header input = .ok (raw, rest)) :
    ∀ b ∈ raw.2, isValue b = true := by
  simp only [header] at h
  split at h
  case h_1 => exact nomatch h
  case h_3 => exact nomatch h
  case h_2 behind _ =>
    obtain ⟨-, h⟩ := refuse_eq_ok.mp h
    obtain ⟨_, -, h⟩ := bind_eq_ok.mp h
    obtain ⟨rfl, -⟩ := Prod.mk.inj (Except.ok.inj h)
    intro b hb
    exact List.mem_takeWhile_imp ((List.rdropWhile_prefix isGap _).mem hb)

/-- There is room for all headers that are read. -/
theorem headers_sound {room : Nat} {input rest : Bytes} {raws : List RawHeader}
    (h : headers room input = .ok (raws, rest)) :
    raws.length ≤ room ∧ ∀ raw ∈ raws, ∀ b ∈ raw.2, isValue b = true := by
  induction raws generalizing room input with
  | nil => exact ⟨Nat.zero_le _, nofun⟩
  | cons raw raws ih =>
    cases input with
    | nil =>
      rw [headers] at h
      exact nomatch h
    | cons b bs =>
      cases hb : isLineEnd b with
      | true => exact nomatch ((headers_of_end hb).mp h).2
      | false =>
        obtain ⟨first, behind, more, room', hfirst, rfl, hmore, heq⟩ := (headers_of_line hb).mp h
        obtain ⟨rfl, rfl⟩ := List.cons.inj heq
        obtain ⟨hlength, hvalues⟩ := ih hmore
        exact ⟨Nat.succ_le_succ hlength, List.forall_mem_cons.mpr ⟨header_sound hfirst, hvalues⟩⟩

/-- A value that is read is plain. -/
theorem readHeader_sound {raw : RawHeader} {h : Header} (hraw : ∀ b ∈ raw.2, isValue b = true)
    (hread : readHeader raw = .ok h) : IsPlain h.2 := by
  obtain ⟨name, value⟩ := raw
  simp only [readHeader] at hread
  split at hread
  · rename_i text htext
    obtain rfl := Except.ok.inj hread
    have hplain := isPlain_iff.mpr (Bytes.ofString_of_toString? htext ▸ hraw)
    exact fun c hc => hplain c (Text.mem_of_mem_trim hc)
  · exact nomatch hread

theorem readHeaders_sound {raws : List RawHeader} {hs : List Header}
    (hraws : ∀ raw ∈ raws, ∀ b ∈ raw.2, isValue b = true) (hread : raws.mapM readHeader = .ok hs) :
    hs.length = raws.length ∧ ∀ h ∈ hs, IsPlain h.2 := by
  have hall := mapM_eq_ok.mp hread
  refine ⟨hall.length_eq.symm, ?_⟩
  clear hread
  induction hall with
  | nil => exact nofun
  | cons hfirst _ ih =>
    obtain ⟨hraw, hraws⟩ := List.forall_mem_cons.mp hraws
    exact List.forall_mem_cons.mpr ⟨readHeader_sound hraw hfirst, ih hraws⟩

end Http

end SealedTunnel
