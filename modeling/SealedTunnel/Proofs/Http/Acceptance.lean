import SealedTunnel.Proofs.Http.Requests

/-!
# Which written requests are read

What may be written is not all that may be read: a path and the values of headers are searched for
line breaks only when they are written, and the headers are not counted. So a request that was
written can be refused, and for these three reasons only.

* `scan_stops` — a scan stops within a text that has a byte of another kind.
* `headersObjection?`, `headers_lines` — what is wrong with headers that were written.
* `Request.objection?`, `Request.decode_written` — what is wrong with a request that was written;
  if nothing is, it comes back.
* `Request.not_decode_written` — a request that is written and refused.
-/

namespace SealedTunnel

namespace Http

/-- A scan for bytes of some kind does not get past a text that has another one. -/
theorem scan_stops {p : UInt8 → Bool} {xs : Bytes} (h : ¬ ∀ b ∈ xs, p b = true) (ys : Bytes) :
    ∃ b bs, (xs ++ ys).dropWhile p = b :: bs ∧ b ∈ xs ∧ p b = false := by
  induction xs with
  | nil => exact absurd (fun _ hb => absurd hb List.not_mem_nil) h
  | cons x xs ih =>
    by_cases hx : p x = true
    · have hxs : ¬ ∀ b ∈ xs, p b = true := fun hxs => h (List.forall_mem_cons.mpr ⟨hx, hxs⟩)
      obtain ⟨b, bs, hdrop, hmem, hb⟩ := ih hxs
      exact ⟨b, bs, (List.dropWhile_cons_of_pos hx).trans hdrop, List.mem_cons_of_mem _ hmem, hb⟩
    · exact ⟨x, _, List.dropWhile_cons_of_neg hx, List.mem_cons_self,
        Bool.eq_false_of_not_eq_true hx⟩

/-- No line ends there. -/
theorem lineEnd_of_not_isLineEnd {b : UInt8} (hb : isLineEnd b = false) (fault : HeadFault)
    (bs : Bytes) : lineEnd fault (b :: bs) = .error (.invalid fault) := by
  simp only [isLineEnd, Bool.or_eq_false_iff, beq_eq_false_iff_ne] at hb
  exact lineEnd.eq_5 fault (b :: bs) (List.cons_ne_nil b bs) (fun h => hb.1 (List.cons.inj h).1)
    (fun _ h => hb.1 (List.cons.inj h).1) (fun _ h => hb.2 (List.cons.inj h).1)

/-- A text without line breaks has no byte of one. -/
theorem not_isLineEnd_of_mem {s : String} (h : ∀ c ∈ s.toList, c ≠ '\r' ∧ c ≠ '\n') {b : UInt8}
    (hb : b ∈ Bytes.ofString s) : isLineEnd b = false := by
  simp only [isLineEnd, Bool.or_eq_false_iff, beq_eq_false_iff_ne]
  constructor
  · rintro rfl
    obtain ⟨c, hc, heq⟩ := (Bytes.mem_ofString (by decide)).mp hb
    exact (h c hc).1 (Char.toNat_inj.mp heq)
  · rintro rfl
    obtain ⟨c, hc, heq⟩ := (Bytes.mem_ofString (by decide)).mp hb
    exact (h c hc).2 (Char.toNat_inj.mp heq)

/-! ## Headers -/

/-- The line of a header that is not plain is not read. -/
theorem header_not_isPlain {h : Header} (hw : IsWritten h)
    (hunbroken : ∀ c ∈ h.2.toList, c ≠ '\r' ∧ c ≠ '\n') (hplain : ¬ IsPlain h.2) (rest : Bytes) :
    header (headerLine h ++ rest) = .error (.invalid .headerValue) := by
  rw [isPlain_iff] at hplain
  obtain ⟨b, bs, hdrop, hmem, -⟩ := scan_stops hplain (0x0d :: 0x0a :: rest)
  have hb := not_isLineEnd_of_mem hunbroken hmem
  rw [header_headerLine hw]
  dsimp only
  rw [hdrop, lineEnd_of_not_isLineEnd hb]
  rfl

/-- What is wrong with headers that were written, for a reader that has room for so many. It reads
one line more before it notices that there is none. -/
def headersObjection? (room : Nat) (hs : List Header) : Option HeadFault :=
  let lines := hs.take (room + 1)
  if ∀ h ∈ lines, IsPlain h.2 then
    if hs.length ≤ room then none else some .tooManyHeaders
  else some .headerValue

theorem headersObjection?_nil (room : Nat) : headersObjection? room [] = none := by
  simp [headersObjection?]

theorem headersObjection?_of_not_isPlain {h : Header} (hplain : ¬ IsPlain h.2) (room : Nat)
    (hs : List Header) : headersObjection? room (h :: hs) = some .headerValue :=
  if_neg fun hall => hplain (hall h List.mem_cons_self)

theorem headersObjection?_zero {h : Header} (hplain : IsPlain h.2) (hs : List Header) :
    headersObjection? 0 (h :: hs) = some .tooManyHeaders := by
  simp [headersObjection?, hplain]

theorem headersObjection?_succ {h : Header} (hplain : IsPlain h.2) (room : Nat)
    (hs : List Header) : headersObjection? (room + 1) (h :: hs) = headersObjection? room hs := by
  have hlines : (∀ h' ∈ h :: hs.take (room + 1), IsPlain h'.2) ↔
      ∀ h' ∈ hs.take (room + 1), IsPlain h'.2 :=
    List.forall_mem_cons.trans (and_iff_right hplain)
  simp only [headersObjection?, List.take_succ_cons, hlines, List.length_cons,
    Nat.add_le_add_iff_right]

/-- Nothing is wrong with plain headers for which there is room. -/
theorem headersObjection?_eq_none {room : Nat} {hs : List Header} :
    headersObjection? room hs = none ↔ (∀ h ∈ hs, IsPlain h.2) ∧ hs.length ≤ room := by
  constructor
  · intro h
    simp only [headersObjection?] at h
    split at h
    · rename_i hplain
      split at h
      · rename_i hroom
        rw [List.take_of_length_le (Nat.le_succ_of_le hroom)] at hplain
        exact ⟨hplain, hroom⟩
      · exact nomatch h
    · exact nomatch h
  · rintro ⟨hplain, hroom⟩
    have hlines : ∀ h ∈ hs.take (room + 1), IsPlain h.2 := fun h hmem =>
      hplain h (List.mem_of_mem_take hmem)
    exact (if_pos hlines).trans (if_pos hroom)

/-- Headers that were written are read if nothing is wrong with them. -/
theorem headers_lines {hs : List Header} (hw : ∀ h ∈ hs, IsWritten h)
    (hunbroken : ∀ h ∈ hs, ∀ c ∈ h.2.toList, c ≠ '\r' ∧ c ≠ '\n') (room : Nat) (rest : Bytes) :
    headers room (hs.flatMap headerLine ++ 0x0d :: 0x0a :: rest) =
      match headersObjection? room hs with
      | some fault => .error (.invalid fault)
      | none => .ok (hs.map fun h => (Bytes.ofString h.1, Bytes.ofString h.2), rest) := by
  induction hs generalizing room with
  | nil =>
    rw [headersObjection?_nil]
    exact (headers_of_end rfl).mpr ⟨rfl, rfl⟩
  | cons h hs ih =>
    obtain ⟨hh, hhs⟩ := List.forall_mem_cons.mp hw
    obtain ⟨hline, hlines⟩ := List.forall_mem_cons.mp hunbroken
    rw [List.flatMap_cons, List.append_assoc]
    obtain ⟨b, bs, hstart, hb⟩ := hh.exists_cons (hs.flatMap headerLine ++ 0x0d :: 0x0a :: rest)
    rw [hstart, headers_eq_of_line hb, ← hstart]
    by_cases hplain : IsPlain h.2
    · rw [header_written hh hplain]
      cases room with
      | zero =>
        rw [headersObjection?_zero hplain]
        rfl
      | succ room =>
        rw [headersObjection?_succ hplain]
        simp only [bind, Except.bind]
        rw [ih hhs hlines room]
        cases headersObjection? room hs with
        | some fault => rfl
        | none => rfl
    · rw [header_not_isPlain hh hline hplain, headersObjection?_of_not_isPlain hplain]
      rfl

/-! ## Requests -/

/-- What is wrong with a request as it was written. -/
def Request.objection? (r : Request) : Option HeadFault :=
  if r.path.toList.all isTargetChar = true then
    headersObjection? maxHeaders r.normal.headers
  else some .token

/-- Nothing is wrong with a request if no control character is in its path or, apart from tabs, in
a value that is written, and no more than 127 headers are written besides the length. -/
theorem Request.objection?_eq_none {r : Request} : r.objection? = none ↔
    (∀ c ∈ r.path.toList, isTargetChar c = true) ∧ (∀ h ∈ kept r.headers, IsPlain h.2) ∧
      (kept r.headers).length ≤ 127 := by
  have hheaders : (∀ h ∈ r.normal.headers, IsPlain h.2) ↔ ∀ h ∈ kept r.headers, IsPlain h.2 := by
    simp only [normal, List.forall_mem_append, List.forall_mem_singleton]
    exact and_iff_left (lengthHeader_isPlain _)
  have hlength : r.normal.headers.length ≤ maxHeaders ↔ (kept r.headers).length ≤ 127 := by
    rw [normal, List.length_append]
    exact Nat.succ_le_succ_iff
  rw [objection?, ← hheaders, ← hlength, ← headersObjection?_eq_none, ← List.all_eq_true]
  by_cases hpath : r.path.toList.all isTargetChar = true
  · rw [if_pos hpath]
    exact (and_iff_right hpath).symm
  · rw [if_neg hpath]
    exact iff_of_false (Option.some_ne_none _) fun h => hpath h.1

/-- A target is not read past a character that no target has. -/
theorem RequestHead.readTarget_of_char {path : String} (htext : isTargetText path = true)
    (hpath : ¬ ∀ c ∈ path.toList, isTargetChar c = true) (method input : Bytes) :
    readTarget method (Bytes.ofString path ++ input) = .error (.invalid .token) := by
  rw [isTarget_iff] at hpath
  obtain ⟨b, bs, hdrop, hmem, -⟩ := scan_stops hpath input
  have hspace : b ≠ 0x20 := by
    rintro rfl
    obtain ⟨c, hc, heq⟩ := (Bytes.mem_ofString (by decide)).mp hmem
    exact ((isTargetText_iff.mp htext).2 c hc).1 (Char.toNat_inj.mp heq)
  have hstop : space .token (b :: bs) = .error (.invalid .token) :=
    space.eq_3 .token (b :: bs) (List.cons_ne_nil b bs) fun _ h => hspace (List.cons.inj h).1
  rw [readTarget, hdrop]
  simp only [bind, Except.bind, hstop]

/-- A head that was written is read if nothing is wrong with it. -/
theorem RequestHead.read_eq_objection {r : Request} (htext : isTargetText r.path = true)
    (hw : ∀ h ∈ r.headers, Writable h) :
    read (writeMessage r.firstLine r.normal.headers r.content) = match r.objection? with
      | some fault => .error (.invalid fault)
      | none => .ok ({
          method := Bytes.ofString r.method.name, target := r.path
          headers := r.normal.headers.map fun h => (Bytes.ofString h.1, Bytes.ofString h.2) },
          r.content) := by
  have hne : r.path ≠ "" := by
    intro hempty
    rw [hempty] at htext
    exact nomatch htext
  rw [writeMessage_firstLine, read_method, Request.objection?]
  by_cases hpath : r.path.toList.all isTargetChar = true
  · have hwritten : ∀ h ∈ r.normal.headers, IsWritten h := fun h hmem => isWritten_of_mem hw hmem
    have hunbroken : ∀ h ∈ r.normal.headers, ∀ c ∈ h.2.toList, c ≠ '\r' ∧ c ≠ '\n' :=
      fun h hmem => (Request.writable_of_mem_normal hw hmem).unbroken
    rw [if_pos hpath, readTarget_written hne (List.all_eq_true.mp hpath),
      headers_lines hwritten hunbroken]
    cases headersObjection? maxHeaders r.normal.headers with
    | some fault => rfl
    | none => rfl
  · rw [if_neg hpath, readTarget_of_char htext (mt List.all_eq_true.mpr hpath)]

/-- A request that was written comes back in its normal form if nothing is wrong with it, and
otherwise the reading side says what is. Nothing is wrong with it if no control character is in its
path or, apart from tabs, in a value, and no more than 127 headers are written besides the
length. -/
theorem Request.decode_written {r : Request} {wire : Bytes} (h : r.encode = .ok wire)
    (hbody : r.content.length < lengthBound) :
    (decode wire = match r.objection? with
      | some fault => .error (.invalidHead .request fault)
      | none => .ok r.normal) ∧
    ((∃ r', decode wire = .ok r') ↔ (∀ c ∈ r.path.toList, isTargetChar c = true) ∧
      (∀ h ∈ kept r.headers, IsPlain h.2) ∧ (kept r.headers).length ≤ 127) := by
  obtain ⟨hmethod, htext, hw, hwire⟩ := encode_eq_ok.mp h
  have hwritten : ∀ h ∈ r.normal.headers, IsWritten h := fun h hmem => isWritten_of_mem hw hmem
  have hread := RequestHead.read_eq_objection htext hw
  rw [show writeMessage r.firstLine r.normal.headers r.content = wire from hwire] at hread
  rw [← objection?_eq_none]
  cases hobjection : r.objection? with
  | some fault =>
    rw [hobjection] at hread
    have hdecode : decode wire = .error (.invalidHead .request fault) := by
      rw [decode, hread]
      rfl
    refine ⟨hdecode, iff_of_false ?_ (Option.some_ne_none fault)⟩
    rintro ⟨r', hr'⟩
    cases hdecode.symm.trans hr'
  | none =>
    rw [hobjection] at hread
    have hname : Method.ofName? (asciiText (Bytes.ofString r.method.name)) = some r.method := by
      rw [asciiText_ofString (isAscii_of_mem_tunnelMethods hmethod), Method.ofName?_name]
    have hdecode : decode wire = .ok r.normal := decode_eq_ok.mpr ⟨_, _, r.content, hread, hname,
      rfl, readHeaders_written hwritten, readBody_written r.headers hbody, rfl⟩
    exact ⟨hdecode, iff_of_true ⟨_, hdecode⟩ rfl⟩

/-- A request with a bell in a value. -/
def Request.belled : Request where
  method := .post
  path := "/epa/größe"
  headers := [("X-Note", "\ta\x07b "), ("Content-Length", "\x07")]
  body := some [0x01, 0x02]

theorem Request.decode_written_belled : ∃ wire, belled.encode = .ok wire ∧
    decode wire = .error (.invalidHead .request .headerValue) ∧ ¬ ∃ r', decode wire = .ok r' := by
  have hwire : belled.encode = .ok (Bytes.ofString ("POST /epa/größe HTTP/1.1\r\n" ++
      "x-note: a\x07b\r\ncontent-length: 2\r\n\r\n\x01\x02")) := by decide +kernel
  have hobjection : belled.objection? = some .headerValue := by decide +kernel
  obtain ⟨hdecode, hiff⟩ := decode_written hwire (by decide)
  rw [hobjection] at hdecode
  have hplain : ¬ ∀ h ∈ kept belled.headers, IsPlain h.2 := by decide +kernel
  exact ⟨_, hwire, hdecode, fun hok => hplain (hiff.mp hok).2.1⟩

/-- Not all that is written is read: a tab in the path is let through by the writing side only. -/
theorem Request.not_decode_written : ¬ ∀ (r : Request) (wire : Bytes), r.encode = .ok wire →
    ∃ r', decode wire = .ok r' := by
  intro h
  have hwire : (⟨.get, "/a\tb", [], none⟩ : Request).encode =
      .ok (Bytes.ofString "GET /a\tb HTTP/1.1\r\ncontent-length: 0\r\n\r\n") := by decide +kernel
  have hdecode : decode (Bytes.ofString "GET /a\tb HTTP/1.1\r\ncontent-length: 0\r\n\r\n") =
      .error (.invalidHead .request .token) := by decide +kernel
  obtain ⟨r', hr'⟩ := h _ _ hwire
  exact nomatch hdecode.symm.trans hr'

end Http

end SealedTunnel
