import SealedTunnel.Proofs.Http.Lines

/-!
# Requests that are written and read

A request is written line by line, and nothing in it can add a line or end the head. So what is
written tells the request, up to headers that are not written as they are; if its parts are
ordinary it is read back.

* `layLines`, `layLines_unique`, `length_layLines_le` — lines up to an empty one.
* `Request.encode_eq_ok` — what is written, and when.
* `Request.Laid`, `Request.laid` — how a request stands in a byte string.
* `Request.encode_unambiguous` — no two different requests are written in the same way.
* `Request.normal`, `Request.encode_normal` — a request as it is read, which is written in the same
  way.
* `Request.round_trip` — what is written of ordinary requests is read back.
-/

namespace SealedTunnel

namespace Http

/-! ## Lines -/

/-- The end of a line. -/
def crlf : Bytes := [0x0d, 0x0a]

/-- A line that is not empty and holds no part of a line's end. -/
structure IsLine (line : Bytes) : Prop where
  /-- it is not empty -/
  ne_nil : line ≠ []
  /-- it has no carriage return -/
  cr : 0x0d ∉ line
  /-- and no line feed -/
  lf : 0x0a ∉ line

/-- Lines with their ends. -/
def layLines (lines : List Bytes) : Bytes := lines.flatMap (· ++ crlf)

theorem layLines_cons (line : Bytes) (lines : List Bytes) (rest : Bytes) :
    layLines (line :: lines) ++ rest = line ++ 0x0d :: 0x0a :: (layLines lines ++ rest) := by
  simp only [layLines, crlf, List.flatMap_cons, List.append_assoc, List.cons_append,
    List.nil_append]

theorem intercalate_crlf (line : Bytes) (lines : List Bytes) :
    crlf.intercalate (line :: lines) ++ crlf = layLines (line :: lines) := by
  induction lines generalizing line with
  | nil => simp [layLines]
  | cons line' lines ih =>
    rw [List.intercalate_cons_cons, List.append_assoc, ih]
    rfl

/-- A text falls in two at the first byte of some kind in one way only. -/
theorem cut_unique {x : UInt8} {p q s t : Bytes} (hp : x ∉ p) (hq : x ∉ q)
    (h : p ++ x :: s = q ++ x :: t) : p = q ∧ s = t := by
  have hother : ∀ {bs : Bytes}, x ∉ bs → ∀ b ∈ bs, (b != x) = true := fun hbs b hb =>
    bne_iff_ne.mpr fun heq => hbs (heq ▸ hb)
  obtain ⟨htake, hdrop⟩ := scan (hother hp) (bne_self_eq_false x) s
  obtain ⟨htake', hdrop'⟩ := scan (hother hq) (bne_self_eq_false x) t
  rw [h] at htake hdrop
  exact ⟨htake.symm.trans htake', (List.cons.inj (hdrop.symm.trans hdrop')).2⟩

theorem IsLine.ne_append {line : Bytes} (h : IsLine line) (rest rest' : Bytes) :
    0x0d :: rest ≠ line ++ 0x0d :: rest' := by
  obtain ⟨b, bs, hline⟩ := List.exists_cons_of_ne_nil h.ne_nil
  rw [hline]
  intro heq
  exact h.cr (hline ▸ (List.cons.inj heq).1 ▸ List.mem_cons_self)

/-- Lines up to an empty one are found again, with what follows them. -/
theorem layLines_unique {lines lines' : List Bytes} (hl : ∀ line ∈ lines, IsLine line)
    (hl' : ∀ line ∈ lines', IsLine line) {body body' : Bytes}
    (h : layLines lines ++ 0x0d :: 0x0a :: body = layLines lines' ++ 0x0d :: 0x0a :: body') :
    lines = lines' ∧ body = body' := by
  induction lines generalizing lines' with
  | nil =>
    cases lines' with
    | nil => exact ⟨rfl, by simpa [layLines] using h⟩
    | cons line' lines' =>
      rw [layLines_cons] at h
      exact absurd h ((hl' line' List.mem_cons_self).ne_append _ _)
  | cons line lines ih =>
    obtain ⟨hline, hl⟩ := List.forall_mem_cons.mp hl
    cases lines' with
    | nil =>
      rw [layLines_cons] at h
      exact absurd h.symm (hline.ne_append _ _)
    | cons line' lines' =>
      obtain ⟨hline', htail⟩ := List.forall_mem_cons.mp hl'
      rw [layLines_cons, layLines_cons] at h
      obtain ⟨hfirst, hrest⟩ := cut_unique hline.cr hline'.cr h
      obtain ⟨htails, hbody⟩ := ih hl htail (List.cons.inj hrest).2
      exact ⟨congrArg₂ List.cons hfirst htails, hbody⟩

/-- No empty line comes before the one behind them. -/
theorem length_layLines_le {lines : List Bytes} (hl : ∀ line ∈ lines, IsLine line)
    {body before after : Bytes} (h : layLines lines ++ 0x0d :: 0x0a :: body =
      before ++ 0x0d :: 0x0a :: 0x0d :: 0x0a :: after) :
    (layLines lines).length ≤ before.length + 2 := by
  induction lines generalizing before with
  | nil => exact Nat.zero_le _
  | cons line lines ih =>
    obtain ⟨hline, hl⟩ := List.forall_mem_cons.mp hl
    have hlength : (layLines (line :: lines)).length =
        line.length + 2 + (layLines lines).length := by
      rw [layLines, List.flatMap_cons, List.length_append, List.length_append]
      rfl
    rw [layLines_cons] at h
    -- the first line ends before the empty line begins
    have hprefix : line <+: before := by
      have hleft : line <+: line ++ 0x0d :: 0x0a :: (layLines lines ++ 0x0d :: 0x0a :: body) :=
        List.prefix_append ..
      have hright : before ++ [0x0d] <+: before ++ 0x0d :: 0x0a :: 0x0d :: 0x0a :: after :=
        ⟨0x0a :: 0x0d :: 0x0a :: after, by simp⟩
      rw [h] at hleft
      obtain hle | hle := List.prefix_or_prefix_of_prefix hleft hright
      · obtain rfl | hle := List.prefix_concat_iff.mp hle
        · exact absurd List.mem_concat_self hline.cr
        · exact hle
      · exact absurd (hle.mem List.mem_concat_self) hline.cr
    obtain ⟨before', rfl⟩ := hprefix
    rw [List.append_assoc, List.append_cancel_left_eq] at h
    match before', h with
    | [], h =>
      cases lines with
      | nil => simp [layLines, crlf]
      | cons line' lines =>
        rw [layLines_cons] at h
        have hnext := (List.cons.inj (List.cons.inj h).2).2
        exact absurd hnext.symm ((hl line' List.mem_cons_self).ne_append _ _)
    | [_], h => exact nomatch (List.cons.inj (List.cons.inj h).2).1
    | _ :: _ :: before', h =>
      have hrest := ih hl (List.cons.inj (List.cons.inj h).2).2
      rw [hlength, List.length_append, List.length_cons, List.length_cons]
      omega


/-! ## What is written -/

/-- The body as it is sent: no body is sent as an empty one. -/
def Request.content (r : Request) : Bytes := r.body.getD []

/-- The first line of a request. -/
def Request.firstLine (r : Request) : String := r.method.name ++ " " ++ r.path ++ " HTTP/1.1"

/-- A request is written if its method is one for the tunnel, its path stays between the spaces of
the first line, and its headers can be written. -/
theorem Request.encode_eq_ok {r : Request} {wire : Bytes} :
    r.encode = .ok wire ↔ r.method ∈ tunnelMethods ∧ isTargetText r.path = true ∧
      (∀ h ∈ r.headers, Writable h) ∧ writeMessage r.firstLine
        (kept r.headers ++ [lengthHeader r.content.length]) r.content = wire := by
  simp only [encode, guard_eq_ok, bind_eq_ok, writtenHeaders_eq_ok, Bool.not_eq_false,
    Decidable.not_not]
  constructor
  · rintro ⟨hmethod, hpath, _, ⟨hw, rfl⟩, h⟩
    exact ⟨hmethod, hpath, hw, Except.ok.inj h⟩
  · rintro ⟨hmethod, hpath, hw, rfl⟩
    exact ⟨hmethod, hpath, _, ⟨hw, rfl⟩, rfl⟩

theorem isTargetText_iff {path : String} : isTargetText path = true ↔
    path.toList.head? = some '/' ∧ ∀ c ∈ path.toList, c ≠ ' ' ∧ c ≠ '\r' ∧ c ≠ '\n' := by
  simp only [isTargetText, Bool.and_eq_true, beq_iff_eq, Bool.not_eq_true', List.any_eq_false,
    Bool.or_eq_true, not_or, and_assoc]

/-! ## Lines of a request -/

/-- The line of a header, without its end. -/
def headerText (h : Header) : String := h.1 ++ ": " ++ h.2

/-- The lines of a head that begins with these and states a length on its last one. -/
def headLines (first : String) (lines : List String) (length : Nat) : List String :=
  first :: lines ++ ["content-length: " ++ toString length]

/-- A head, without the end of its last line. -/
def headOf (first : String) (lines : List String) (length : Nat) : Bytes :=
  crlf.intercalate ((headLines first lines length).map Bytes.ofString)

theorem headOf_crlf (first : String) (lines : List String) (length : Nat) :
    headOf first lines length ++ crlf =
      layLines ((headLines first lines length).map Bytes.ofString) := intercalate_crlf _ _

theorem writeMessage_eq_layLines (first : String) (headers : List Header) (body : Bytes) :
    writeMessage first (headers ++ [lengthHeader body.length]) body =
      layLines ((headLines first (headers.map headerText) body.length).map Bytes.ofString) ++
        0x0d :: 0x0a :: body := by
  have hheader : headerLine = fun h => Bytes.ofString (headerText h) ++ crlf := rfl
  have hlast : headerText (lengthHeader body.length) =
      "content-length: " ++ toString body.length := rfl
  have hlines : headLines first (headers.map headerText) body.length =
      first :: (headers ++ [lengthHeader body.length]).map headerText := by
    rw [headLines, List.map_append, List.map_singleton, hlast]
    rfl
  rw [writeMessage_eq, hheader, hlines, List.map_cons, layLines_cons, layLines, List.flatMap_map,
    List.flatMap_map]

/-- A text that makes a line. -/
structure IsLineText (s : String) : Prop where
  /-- it is not empty -/
  ne_empty : s ≠ ""
  /-- it holds no part of a line's end -/
  unbroken : ∀ c ∈ s.toList, c ≠ '\r' ∧ c ≠ '\n'

theorem IsLineText.isLine {s : String} (h : IsLineText s) : IsLine (Bytes.ofString s) where
  ne_nil := fun hnil => h.ne_empty (Bytes.ofString_injective hnil)
  cr := by
    intro hmem
    obtain ⟨c, hc, heq⟩ := (Bytes.mem_ofString (by decide)).mp hmem
    exact (h.unbroken c hc).1 (Char.toNat_inj.mp heq)
  lf := by
    intro hmem
    obtain ⟨c, hc, heq⟩ := (Bytes.mem_ofString (by decide)).mp hmem
    exact (h.unbroken c hc).2 (Char.toNat_inj.mp heq)

/-- The headers that are not dropped. -/
def surviving (headers : List Header) : List Header :=
  headers.filter fun h => !isDropped (Text.lower h.1) h.2

theorem kept_eq (headers : List Header) : kept headers =
    (surviving headers).map fun h => (Text.lower h.1, Text.trim h.2) := by
  rw [surviving, ← List.filterMap_eq_map, List.filterMap_filter]
  refine List.filterMap_congr fun h _ => ?_
  cases hdropped : isDropped (Text.lower h.1) h.2 <;> simp [form, hdropped]

/-- A line cut at its first colon: what stands before it and what stands behind it. -/
def cutColon (line : String) : String × String :=
  (String.ofList (line.toList.takeWhile (· != ':')),
    String.ofList ((line.toList.dropWhile (· != ':')).drop 1))

theorem cutColon_headerText {h : Header} (hname : ':' ∉ h.1.toList) :
    cutColon (headerText h) = (h.1, " " ++ h.2) := by
  have hother : ∀ c ∈ h.1.toList, (c != ':') = true := fun c hc =>
    bne_iff_ne.mpr fun heq => hname (heq ▸ hc)
  have hline : (headerText h).toList = h.1.toList ++ ':' :: (" " ++ h.2).toList := by
    simp [headerText]
  rw [cutColon, hline, List.takeWhile_append_of_pos hother, List.dropWhile_append_of_pos hother]
  simp

/-- How a request stands in a byte string: with these lines behind the first one, and with the
length of its body on the last one. -/
structure Request.Laid (r : Request) (wire : Bytes) (first : String) (lines : List String) :
    Prop where
  /-- the lines, an empty line and the body -/
  wire_eq : wire = headOf first lines r.content.length ++ crlf ++ crlf ++ r.content
  /-- no line holds a part of a line's end -/
  unbroken : ∀ line ∈ headLines first lines r.content.length,
    ∀ c ∈ line.toList, c ≠ '\r' ∧ c ≠ '\n'
  /-- so the first empty line is the one that ends the head -/
  ends : ∀ before after, wire = before ++ crlf ++ crlf ++ after →
    (headOf first lines r.content.length).length ≤ before.length
  /-- the first line falls into three words -/
  words : first.toList.splitOn ' ' =
    [r.method.name.toList, r.path.toList, "HTTP/1.1".toList]
  /-- each of the others is one header that is not dropped, in order -/
  cuts : lines.map cutColon =
    (surviving r.headers).map fun h => (Text.lower h.1, " " ++ Text.trim h.2)
  /-- none of them states a length or is about the connection -/
  allowed : ∀ line ∈ lines, (cutColon line).1 ∉ ["content-length", "te", "transfer-coding"]
  /-- and none says that the body is chunked, in any case -/
  unchunked : ∀ line ∈ lines, (cutColon line).1 = "transfer-encoding" →
    Text.occursIn "chunked".toList (Text.lower line).toList = false

/-! ### Headers that are written -/

theorem isNameChar_ne {c : Char} (h : isNameChar c = true) : c ≠ ':' ∧ c ≠ '\r' ∧ c ≠ '\n' := by
  refine ⟨?_, ?_, ?_⟩ <;>
  · rintro rfl
    exact absurd h (by decide)

theorem IsWritten.colon {h : Header} (hw : IsWritten h) : ':' ∉ h.1.toList := fun hmem =>
  (isNameChar_ne ((isHeaderName_iff.mp hw.name).2 _ hmem)).1 rfl

/-- A header that is written keeps to its line, -/
theorem IsWritten.isLineText {h : Header} (hw : IsWritten h)
    (hvalue : ∀ c ∈ h.2.toList, c ≠ '\r' ∧ c ≠ '\n') : IsLineText (headerText h) where
  ne_empty := by simp [headerText]
  unbroken := by
    have hcolon : ∀ c ∈ ": ".toList, c ≠ '\r' ∧ c ≠ '\n' := by simp
    intro c hc
    simp only [headerText, String.toList_append, List.mem_append] at hc
    obtain (hc | hc) | hc := hc
    · exact (isNameChar_ne ((isHeaderName_iff.mp hw.name).2 c hc)).2
    · exact hcolon c hc
    · exact hvalue c hc

/-- The value of a header that is written stays on its line. -/
theorem unbroken_of_mem_kept {headers : List Header} (hw : ∀ h ∈ headers, Writable h) {h : Header}
    (hmem : h ∈ kept headers) : ∀ c ∈ h.2.toList, c ≠ '\r' ∧ c ≠ '\n' := by
  obtain ⟨h', hh', -, rfl⟩ := mem_kept hmem
  exact fun c hc => (hw h' hh').unbroken c (Text.mem_of_mem_trim hc)

/-- Such a header says nothing about the length of the body, the connection or chunks. -/
theorem allowed_of_mem_kept {headers : List Header} (hw : ∀ h ∈ headers, Writable h) {h : Header}
    (hmem : h ∈ kept headers) : h.1 ∉ ["content-length", "te", "transfer-coding"] ∧
      (h.1 = "transfer-encoding" →
        Text.occursIn "chunked".toList (Text.lower h.2).toList = false) := by
  obtain ⟨h', hh', hkept, rfl⟩ := mem_kept hmem
  obtain ⟨hlength, hchunked⟩ := Bool.or_eq_false_iff.mp hkept
  constructor
  · exact List.not_mem_cons_of_ne_of_not_mem (ne_of_beq_false hlength) (hw h' hh').allowed
  · intro hname
    rw [show Text.lower h'.1 = "transfer-encoding" from hname, beq_self_eq_true, Bool.true_and]
      at hchunked
    exact Bool.eq_false_iff.mpr fun hoccurs =>
      Bool.eq_false_iff.mp hchunked (Text.occursIn_lower_trim hoccurs)

/-- The name of such a header does not begin what its value does not hold. -/
theorem occursIn_headerText (value : String) : Text.occursIn "chunked".toList
    (Text.lower (headerText ("transfer-encoding", value))).toList =
      Text.occursIn "chunked".toList (Text.lower value).toList := by
  have hskip : ∀ cs, Text.occursIn "chunked".toList ("transfer-encoding: ".toList ++ cs) =
      Text.occursIn "chunked".toList cs := fun _ => rfl
  have hlower : (Text.lower (headerText ("transfer-encoding", value))).toList =
      "transfer-encoding: ".toList ++ (Text.lower value).toList := by
    simp [Text.lower, headerText]
  rw [hlower, hskip]

theorem lengthHeader_writable (length : Nat) : Writable (lengthHeader length) where
  name := (lengthHeader_isWritten length).name
  allowed := by
    rw [(lengthHeader_isWritten length).lower]
    show "content-length" ∉ connectionHeaders
    decide
  unbroken := by
    intro c hc
    have hdigit := Text.mem_toString hc
    constructor <;>
    · rintro rfl
      exact nomatch hdigit

/-! ### The first line -/

/-- The names of the methods for the tunnel are plain words. -/
theorem name_of_mem_tunnelMethods {m : Method} (h : m ∈ tunnelMethods) :
    ∀ c ∈ m.name.toList, c ≠ ' ' ∧ c ≠ '\r' ∧ c ≠ '\n' := by
  have hall : ∀ m ∈ tunnelMethods, ∀ c ∈ m.name.toList, c ≠ ' ' ∧ c ≠ '\r' ∧ c ≠ '\n' := by
    simp [tunnelMethods, Method.get, Method.post, Method.put, Method.delete]
  exact hall m h

theorem Request.toList_firstLine (r : Request) : r.firstLine.toList =
    [' '].intercalate [r.method.name.toList, r.path.toList, "HTTP/1.1".toList] := by
  have hspace : " ".toList = [' '] := rfl
  have hversion : " HTTP/1.1".toList = ' ' :: "HTTP/1.1".toList := rfl
  simp only [firstLine, String.toList_append, hspace, hversion, List.intercalate_cons_cons,
    List.intercalate_singleton, List.append_assoc, List.cons_append, List.nil_append]

/-- The first line falls into its three words. -/
theorem Request.splitOn_firstLine {r : Request} (hmethod : r.method ∈ tunnelMethods)
    (hpath : isTargetText r.path = true) : r.firstLine.toList.splitOn ' ' =
      [r.method.name.toList, r.path.toList, "HTTP/1.1".toList] := by
  rw [toList_firstLine]
  refine List.splitOn_intercalate _ ?_ nofun
  simp only [List.forall_mem_cons]
  refine ⟨fun hmem => ?_, fun hmem => ?_, by simp, nofun⟩
  · exact (name_of_mem_tunnelMethods hmethod _ hmem).1 rfl
  · exact ((isTargetText_iff.mp hpath).2 _ hmem).1 rfl

theorem Request.isLineText_firstLine {r : Request} (hmethod : r.method ∈ tunnelMethods)
    (hpath : isTargetText r.path = true) : IsLineText r.firstLine where
  ne_empty := by simp [firstLine]
  unbroken := by
    have hversion : ∀ c ∈ " HTTP/1.1".toList, c ≠ '\r' ∧ c ≠ '\n' := by simp
    have hspace : ∀ c ∈ " ".toList, c ≠ '\r' ∧ c ≠ '\n' := by simp
    intro c hc
    simp only [firstLine, String.toList_append, List.mem_append] at hc
    obtain ((hc | hc) | hc) | hc := hc
    · exact (name_of_mem_tunnelMethods hmethod c hc).2
    · exact hspace c hc
    · exact ((isTargetText_iff.mp hpath).2 c hc).2
    · exact hversion c hc

/-! ### The head of a request -/

theorem isWritten_of_mem_kept {headers : List Header} (hw : ∀ h ∈ headers, Writable h) {h : Header}
    (hmem : h ∈ kept headers) : IsWritten h :=
  isWritten_of_mem hw (List.mem_append_left [lengthHeader 0] hmem)

/-- The headers that are written are found on their lines again. -/
theorem map_cutColon {headers : List Header} (hw : ∀ h ∈ headers, Writable h) :
    ((kept headers).map headerText).map cutColon =
      (kept headers).map fun h => (h.1, " " ++ h.2) := by
  rw [List.map_map]
  exact List.map_congr_left fun h hh => cutColon_headerText (isWritten_of_mem_kept hw hh).colon

/-- Every line of a request that is written makes a line. -/
theorem Request.isLineText_headLines {r : Request} (hmethod : r.method ∈ tunnelMethods)
    (hpath : isTargetText r.path = true) (hw : ∀ h ∈ r.headers, Writable h) :
    ∀ line ∈ headLines r.firstLine ((kept r.headers).map headerText) r.content.length,
      IsLineText line := by
  rw [headLines, List.cons_append, List.forall_mem_cons]
  refine ⟨isLineText_firstLine hmethod hpath, fun line hline => ?_⟩
  obtain hline | hline := List.mem_append.mp hline
  · obtain ⟨h, hh, rfl⟩ := List.mem_map.mp hline
    exact (isWritten_of_mem_kept hw hh).isLineText (unbroken_of_mem_kept hw hh)
  · obtain rfl := List.mem_singleton.mp hline
    exact (lengthHeader_isWritten _).isLineText (lengthHeader_writable _).unbroken

theorem Request.isLine_headLines {r : Request} (hmethod : r.method ∈ tunnelMethods)
    (hpath : isTargetText r.path = true) (hw : ∀ h ∈ r.headers, Writable h) :
    ∀ line ∈ (headLines r.firstLine ((kept r.headers).map headerText) r.content.length).map
      Bytes.ofString, IsLine line := by
  intro line hline
  obtain ⟨text, htext, rfl⟩ := List.mem_map.mp hline
  exact (isLineText_headLines hmethod hpath hw text htext).isLine

/-- What is written of a request is laid out line by line. -/
theorem Request.laid {r : Request} {wire : Bytes} (h : r.encode = .ok wire) :
    r.Laid wire r.firstLine ((kept r.headers).map headerText) := by
  obtain ⟨hmethod, hpath, hw, rfl⟩ := encode_eq_ok.mp h
  have hcut : ∀ h ∈ kept r.headers, cutColon (headerText h) = (h.1, " " ++ h.2) := fun h hh =>
    cutColon_headerText (isWritten_of_mem_kept hw hh).colon
  have hwire := writeMessage_eq_layLines r.firstLine (kept r.headers) r.content
  have hbehind : (0x0d :: 0x0a :: r.content : Bytes) = crlf ++ r.content := rfl
  constructor
  case wire_eq => simp only [hwire, hbehind, ← headOf_crlf, List.append_assoc]
  case unbroken =>
    exact fun line hline => (isLineText_headLines hmethod hpath hw line hline).unbroken
  case ends =>
    intro before after hsplit
    rw [hwire, List.append_assoc, List.append_assoc] at hsplit
    have hle := length_layLines_le (isLine_headLines hmethod hpath hw) hsplit
    rw [← headOf_crlf, List.length_append] at hle
    exact Nat.le_of_add_le_add_right hle
  case words => exact splitOn_firstLine hmethod hpath
  case cuts =>
    rw [map_cutColon hw, kept_eq, List.map_map]
    rfl
  case allowed =>
    intro line hline
    obtain ⟨h, hh, rfl⟩ := List.mem_map.mp hline
    rw [hcut h hh]
    exact (allowed_of_mem_kept hw hh).1
  case unchunked =>
    intro line hline hname
    obtain ⟨⟨name, value⟩, hh, rfl⟩ := List.mem_map.mp hline
    rw [hcut _ hh] at hname
    obtain rfl : name = "transfer-encoding" := hname
    exact (occursIn_headerText value).trans ((allowed_of_mem_kept hw hh).2 rfl)

theorem Method.eq_of_name {m m' : Method} (h : m.name = m'.name) : m = m' := by
  cases m
  cases m'
  cases h
  rfl

/-- What is written of a request tells its method, its path, the headers that are not dropped and
its body. -/
theorem Request.encode_unambiguous {r : Request} {wire : Bytes} (h : r.encode = .ok wire) :
    (∃ first lines, r.Laid wire first lines) ∧
      ∀ r' : Request, r'.encode = .ok wire → r'.method = r.method ∧ r'.path = r.path ∧
        kept r'.headers = kept r.headers ∧ r'.content = r.content := by
  refine ⟨⟨_, _, laid h⟩, fun r' h' => ?_⟩
  obtain ⟨hmethod, hpath, hw, rfl⟩ := encode_eq_ok.mp h
  obtain ⟨hmethod', hpath', hw', heq⟩ := encode_eq_ok.mp h'
  rw [writeMessage_eq_layLines, writeMessage_eq_layLines] at heq
  obtain ⟨hlines, hcontent⟩ := layLines_unique (isLine_headLines hmethod' hpath' hw')
    (isLine_headLines hmethod hpath hw) heq
  obtain ⟨hfirst, hrest⟩ := List.cons.inj
    (List.map_injective_iff.mpr (fun _ _ => Bytes.ofString_injective) hlines)
  obtain ⟨hheaders, -⟩ := List.append_inj' hrest rfl
  have hwords := (splitOn_firstLine hmethod' hpath').symm.trans
    (hfirst ▸ splitOn_firstLine hmethod hpath)
  simp only [List.cons.injEq, String.toList_inj] at hwords
  obtain ⟨hname, hpaths, -⟩ := hwords
  have hcuts := (map_cutColon hw').symm.trans (hheaders ▸ map_cutColon hw)
  have hinjective : Function.Injective fun h : Header => (h.1, " " ++ h.2) := by
    rintro ⟨name, value⟩ ⟨name', value'⟩ hpair
    obtain ⟨hnames, hvalues⟩ := Prod.mk.inj hpair
    rw [← String.toList_inj, String.toList_append, String.toList_append,
      List.append_cancel_left_eq, String.toList_inj] at hvalues
    exact Prod.ext hnames hvalues
  exact ⟨Method.eq_of_name hname, hpaths, List.map_injective_iff.mpr hinjective hcuts, hcontent⟩

/-- A request whose headers are not written as they are. -/
def Request.sample : Request where
  method := .post
  path := "/epa/entries?filter=größe"
  headers := [("Content-Type", " text/plain\t"), ("Content-Length", "999"),
    ("Transfer-Encoding", "gzip, Chunked"), ("X-Note", "a: b")]
  body := some [0x0d, 0x0a, 0x0d, 0x0a]

/-- The sample as it is written. -/
def Request.sampleWire : Bytes := Bytes.ofString ("POST /epa/entries?filter=größe HTTP/1.1\r\n" ++
  "content-type: text/plain\r\nx-note: a: b\r\ncontent-length: 4\r\n\r\n\r\n\r\n")

theorem Request.encode_sample : sample.encode = .ok sampleWire := rfl

theorem Request.encode_unambiguous_sample : sample.encode = .ok sampleWire ∧
    (∃ first lines, sample.Laid sampleWire first lines) ∧
      ∀ r' : Request, r'.encode = .ok sampleWire → r'.method = .post ∧
        r'.path = "/epa/entries?filter=größe" ∧
        kept r'.headers = [("content-type", "text/plain"), ("x-note", "a: b")] ∧
        r'.content = [0x0d, 0x0a, 0x0d, 0x0a] := by
  have hkept : kept sample.headers = [("content-type", "text/plain"), ("x-note", "a: b")] := rfl
  obtain ⟨hlaid, hunique⟩ := encode_unambiguous encode_sample
  exact ⟨encode_sample, hlaid, fun r' h => hkept ▸ hunique r' h⟩


/-! ## Heads of requests -/

/-- A character of a target: no blank and no control character. -/
def isTargetChar (c : Char) : Bool := 0x21 ≤ c.toNat && c.toNat != 0x7f

/-- The bytes of a text are those of a target if its characters are. -/
theorem isTarget_iff {s : String} : (∀ c ∈ s.toList, isTargetChar c = true) ↔
    ∀ b ∈ Bytes.ofString s, isTarget b = true := by
  have hlarge : ∀ b : UInt8, ¬ b < 128 → isTarget b = true := by
    intro b hb
    have hle : 0x80 ≤ b := UInt8.not_lt.mp hb
    simp [isTarget, hle]
  have hsmall : ∀ n < 128, isTarget (UInt8.ofNat n) = (0x21 ≤ n && n != 0x7f) := by decide
  rw [Bytes.forall_mem_ofString hlarge]
  refine forall₂_congr fun c _ => ⟨fun h hlt => (hsmall c.toNat hlt).trans h, fun h => ?_⟩
  by_cases hlt : c.toNat < 128
  · exact (hsmall c.toNat hlt).symm.trans (h hlt)
  · simp only [isTargetChar, Bool.and_eq_true, decide_eq_true_eq, bne_iff_ne]
    omega

theorem skipEmptyLines_cons {b : UInt8} (hb : isLineEnd b = false) (bs : Bytes) :
    skipEmptyLines (b :: bs) = .ok (b :: bs) := by
  simp only [isLineEnd, Bool.or_eq_false_iff, beq_eq_false_iff_ne] at hb
  exact skipEmptyLines.eq_6 (b :: bs) (List.cons_ne_nil b bs) (fun h => hb.1 (List.cons.inj h).1)
    (fun _ h => hb.1 (List.cons.inj h).1) (fun _ h => hb.1 (List.cons.inj h).1)
    (fun _ h => hb.2 (List.cons.inj h).1)

/-- A head is read part by part. -/
theorem RequestHead.read_eq_ok {input rest : Bytes} {head : RequestHead} :
    read input = .ok (head, rest) ↔ ∃ i₁ i₂ i₃ i₄ i₅, skipEmptyLines input = .ok i₁ ∧
      i₁.takeWhile isToken = head.method ∧ head.method ≠ [] ∧
      space .token (i₁.dropWhile isToken) = .ok i₂ ∧
      space .token (i₂.dropWhile isTarget) = .ok i₃ ∧ i₂.takeWhile isTarget ≠ [] ∧
      Bytes.toString? (i₂.takeWhile isTarget) = some head.target ∧ version i₃ = .ok i₄ ∧
      lineEnd .newLine i₄ = .ok i₅ ∧ Http.headers maxHeaders i₅ = .ok (head.headers, rest) := by
  simp only [read, bind_eq_ok, guard_eq_ok]
  constructor
  · rintro ⟨i₁, hskip, hmethod, i₂, hspace, i₃, hspace', htarget, h⟩
    split at h
    · exact nomatch h
    · rename_i target htext
      obtain ⟨i₄, hversion, i₅, hend, ⟨raws, rest'⟩, hheaders, h⟩ := by
        simpa only [bind_eq_ok] using h
      obtain ⟨rfl, rfl⟩ := Prod.mk.inj (Except.ok.inj h)
      exact ⟨i₁, i₂, i₃, i₄, i₅, hskip, rfl, hmethod, hspace, hspace', htarget, htext, hversion,
        hend, hheaders⟩
  · rintro ⟨i₁, i₂, i₃, i₄, i₅, hskip, hmethod, hne, hspace, hspace', htarget, htext, hversion,
      hend, hheaders⟩
    refine ⟨i₁, hskip, hmethod ▸ hne, i₂, hspace, i₃, hspace', htarget, ?_⟩
    rw [htext]
    simp only [bind_eq_ok]
    refine ⟨i₄, hversion, i₅, hend, _, hheaders, ?_⟩
    rw [hmethod]
    rfl

/-- A method's name is a token. -/
theorem Method.isToken_name (m : Method) :
    Bytes.ofString m.name ≠ [] ∧ ∀ b ∈ Bytes.ofString m.name, isToken b = true := by
  have hvalid := m.valid
  simp only [isMethodName, Bool.and_eq_true, decide_eq_true_eq, List.all_eq_true] at hvalid
  exact ⟨fun hnil => hvalid.1 (Bytes.ofString_injective hnil), hvalid.2⟩

/-- What is read behind the method. -/
def RequestHead.readTarget (method input : Bytes) : Except Stop (RequestHead × Bytes) := do
  let target := input.takeWhile isTarget
  let input ← space .token (input.dropWhile isTarget)
  if target = [] then throw (.invalid .token)
  match Bytes.toString? target with
  | none => throw (.invalid .token)
  | some target =>
    let input ← version input
    let input ← lineEnd .newLine input
    let (headers, rest) ← Http.headers maxHeaders input
    return ({ method, target, headers }, rest)

/-- A method that is written is read. -/
theorem RequestHead.read_method (m : Method) (input : Bytes) :
    read (Bytes.ofString m.name ++ 0x20 :: input) = readTarget (Bytes.ofString m.name) input := by
  obtain ⟨hname, htoken⟩ := m.isToken_name
  obtain ⟨b, bs, hstart⟩ := List.exists_cons_of_ne_nil hname
  have hb : isLineEnd b = false :=
    isLineEnd_of_isToken (htoken b (hstart ▸ List.mem_cons_self))
  obtain ⟨hmethod, hbehind⟩ := scan htoken (b := 0x20) rfl input
  have hskip : skipEmptyLines (Bytes.ofString m.name ++ 0x20 :: input) =
      .ok (Bytes.ofString m.name ++ 0x20 :: input) := by
    rw [hstart]
    exact skipEmptyLines_cons hb _
  rw [read, hskip]
  simp only [bind, Except.bind, hmethod, hbehind, if_neg hname]
  rfl

/-- So is a target, if it has the characters of one. -/
theorem RequestHead.readTarget_written {path : String} (hne : path ≠ "")
    (hpath : ∀ c ∈ path.toList, isTargetChar c = true) (method input : Bytes) :
    readTarget method (Bytes.ofString path ++ 0x20 :: (Bytes.ofString "HTTP/1.1" ++ 0x0d :: 0x0a ::
      input)) = do
        let (headers, rest) ← Http.headers maxHeaders input
        return ({ method, target := path, headers }, rest) := by
  obtain ⟨htarget, hbehind⟩ := scan (isTarget_iff.mp hpath) (b := 0x20) (by decide)
    (Bytes.ofString "HTTP/1.1" ++ 0x0d :: 0x0a :: input)
  have hbytes : Bytes.ofString path ≠ [] := fun hnil => hne (Bytes.ofString_injective hnil)
  rw [readTarget, htarget, hbehind]
  simp only [bind, Except.bind, space, if_neg hbytes, Bytes.toString?_ofString, version_written,
    lineEnd]

theorem writeMessage_firstLine (r : Request) (hs : List Header) (body : Bytes) :
    writeMessage r.firstLine hs body = Bytes.ofString r.method.name ++ 0x20 ::
      (Bytes.ofString r.path ++ 0x20 :: (Bytes.ofString "HTTP/1.1" ++ 0x0d :: 0x0a ::
        (hs.flatMap headerLine ++ 0x0d :: 0x0a :: body))) := by
  have hspace : Bytes.ofString " " = [0x20] := rfl
  have hversion : Bytes.ofString " HTTP/1.1" = 0x20 :: Bytes.ofString "HTTP/1.1" := rfl
  simp only [writeMessage_eq, Request.firstLine, Bytes.ofString_append, hspace, hversion,
    List.append_assoc, List.cons_append, List.nil_append]

/-- A head that is written is read, if its target and the values of its headers are plain and there
is room for them. -/
theorem RequestHead.read_written {r : Request} (hne : r.path ≠ "")
    (hpath : ∀ c ∈ r.path.toList, isTargetChar c = true) {hs : List Header}
    (hw : ∀ h ∈ hs, IsWritten h) (hvalues : ∀ h ∈ hs, IsPlain h.2)
    (hroom : hs.length ≤ maxHeaders) (body : Bytes) :
    read (writeMessage r.firstLine hs body) =
      .ok ({ method := Bytes.ofString r.method.name, target := r.path
             headers := hs.map fun h => (Bytes.ofString h.1, Bytes.ofString h.2) }, body) := by
  rw [writeMessage_firstLine, read_method, readTarget_written hne hpath,
    headers_written hw hvalues hroom body]
  rfl

/-! ## Requests that are read -/

/-- A request as it is read: with the headers that are written of it, and without a body if the
body is empty. -/
def Request.normal (r : Request) : Request where
  method := r.method
  path := r.path
  headers := kept r.headers ++ [lengthHeader r.content.length]
  body := if r.content = [] then none else some r.content

/-- A request is read if its head, its method, its headers and its body are. -/
theorem Request.decode_eq_ok {b : Bytes} {r : Request} : decode b = .ok r ↔
    ∃ head rest body, RequestHead.read b = .ok (head, rest) ∧
      Method.ofName? (asciiText head.method) = some r.method ∧ head.target = r.path ∧
      head.headers.mapM readHeader = .ok r.headers ∧ readBody r.headers rest = .ok body ∧
      (if body = [] then none else some body) = r.body := by
  simp only [decode, bind_eq_ok, headResult_eq_ok]
  constructor
  · rintro ⟨⟨head, rest⟩, hread, h⟩
    dsimp only at h
    split at h
    · exact nomatch h
    · rename_i method hmethod
      obtain ⟨headers, hheaders, body, hbody, h⟩ := by simpa only [bind_eq_ok] using h
      obtain rfl := Except.ok.inj h
      exact ⟨head, rest, body, hread, hmethod, rfl, hheaders, hbody, rfl⟩
  · rintro ⟨head, rest, body, hread, hmethod, hpath, hheaders, hbody, hnone⟩
    refine ⟨(head, rest), hread, ?_⟩
    dsimp only
    rw [hmethod]
    simp only [bind_eq_ok]
    refine ⟨_, hheaders, _, hbody, ?_⟩
    rw [hpath, hnone]
    rfl

theorem Method.ofName?_name (m : Method) : ofName? m.name = some m := dif_pos m.valid

theorem isAscii_of_mem_tunnelMethods {m : Method} (h : m ∈ tunnelMethods) : IsAscii m.name := by
  have hall : ∀ m ∈ tunnelMethods, IsAscii m.name := by decide
  exact hall m h

/-- A header that is written is written as it is, -/
theorem form_of_mem_kept {headers : List Header} (hw : ∀ h ∈ headers, Writable h) {h : Header}
    (hmem : h ∈ kept headers) : form h = some h := by
  have hwritten := isWritten_of_mem_kept hw hmem
  obtain ⟨hallowed, hchunked⟩ := allowed_of_mem_kept hw hmem
  have hkept : isDropped h.1 h.2 = false := by
    refine Bool.or_eq_false_iff.mpr ⟨beq_false_of_ne (List.ne_of_not_mem_cons hallowed), ?_⟩
    by_cases hname : h.1 = "transfer-encoding"
    · rw [hchunked hname, Bool.and_false]
    · rw [beq_false_of_ne hname, Bool.false_and]
  rw [form, hwritten.lower, hkept, hwritten.trimmed.trim_eq]
  rfl

/-- and the length is stated anew. -/
theorem kept_normal {headers : List Header} (hw : ∀ h ∈ headers, Writable h) (length : Nat) :
    kept (kept headers ++ [lengthHeader length]) = kept headers := by
  have hlast : form (lengthHeader length) = none := by
    rw [form, (lengthHeader_isWritten length).lower]
    exact if_pos rfl
  have hlength : kept [lengthHeader length] = [] := by
    rw [kept, List.filterMap_cons_none hlast, List.filterMap_nil]
  have hkept : kept (kept headers) = kept headers :=
    (List.filterMap_congr fun h hh => form_of_mem_kept hw hh).trans List.filterMap_some
  rw [kept, List.filterMap_append, ← kept, ← kept, hkept, hlength, List.append_nil]

/-- All that is written can be written. -/
theorem Request.writable_of_mem_normal {r : Request} (hw : ∀ h ∈ r.headers, Writable h) {h : Header}
    (hmem : h ∈ r.normal.headers) : Writable h := by
  obtain hmem | hmem := List.mem_append.mp hmem
  · have hwritten := isWritten_of_mem_kept hw hmem
    have hallowed := (allowed_of_mem_kept hw hmem).1
    exact ⟨hwritten.name, hwritten.lower.symm ▸ List.not_mem_of_not_mem_cons hallowed,
      unbroken_of_mem_kept hw hmem⟩
  · exact List.mem_singleton.mp hmem ▸ lengthHeader_writable _

theorem Request.content_normal (r : Request) : r.normal.content = r.content := by
  show (if r.content = [] then none else some r.content).getD [] = r.content
  by_cases hnil : r.content = []
  · rw [if_pos hnil, hnil]
    rfl
  · rw [if_neg hnil]
    rfl

/-- What is written of a request is written again once it is read. -/
theorem Request.encode_normal {r : Request} {wire : Bytes} (h : r.encode = .ok wire) :
    r.normal.encode = .ok wire := by
  obtain ⟨hmethod, hpath, hw, hwire⟩ := encode_eq_ok.mp h
  have hheaders : kept r.normal.headers = kept r.headers := kept_normal hw _
  refine encode_eq_ok.mpr ⟨hmethod, hpath, fun h hmem => writable_of_mem_normal hw hmem, ?_⟩
  rw [hheaders, content_normal]
  exact hwire

/-! ### Ordinary requests -/

/-- A character of a URI: a letter, a digit or one of the marks that may stand there. -/
def isUriChar (c : Char) : Bool := c.isAlphanum || "-._~:/?#[]@!$&'()*+,;=%".toList.contains c

theorem isTargetChar_of_isUriChar {c : Char} (h : isUriChar c = true) : isTargetChar c = true := by
  have hmarks : "-._~:/?#[]@!$&'()*+,;=%".toList.all isTargetChar = true := rfl
  have hall : ∀ n < 128, (Char.ofNat n).isAlphanum = true → (0x21 ≤ n && n != 0x7f) = true := by
    decide +kernel
  simp only [isUriChar, Bool.or_eq_true, List.contains_iff_mem] at h
  obtain h | h := h
  · exact hall c.toNat (lt_of_isAlphanum h) (by rwa [Char.ofNat_toNat])
  · exact List.all_eq_true.mp hmarks c h

/-- A request that is written, and whose path, values and number of headers are ordinary, comes
back in its normal form, which is written in the same way. -/
theorem Request.round_trip {r : Request} {wire : Bytes} (h : r.encode = .ok wire)
    (hpath : ∀ c ∈ r.path.toList, isUriChar c = true) (hvalues : ∀ h ∈ r.headers, IsPlain h.2)
    (hroom : (kept r.headers).length ≤ 127) (hbody : r.content.length < lengthBound) :
    decode wire = .ok r.normal ∧ r.normal.encode = .ok wire := by
  obtain ⟨hmethod, htext, hw, hwire⟩ := encode_eq_ok.mp h
  have hne : r.path ≠ "" := by
    rintro hempty
    rw [hempty] at htext
    exact nomatch htext
  have hwritten : ∀ h ∈ r.normal.headers, IsWritten h := fun h hmem => isWritten_of_mem hw hmem
  have hplain : ∀ h ∈ r.normal.headers, IsPlain h.2 := by
    intro h hmem
    obtain hmem | hmem := List.mem_append.mp hmem
    · obtain ⟨h', hh', -, rfl⟩ := mem_kept hmem
      exact fun c hc => hvalues h' hh' c (Text.mem_of_mem_trim hc)
    · exact List.mem_singleton.mp hmem ▸ lengthHeader_isPlain _
  have hlength : r.normal.headers.length ≤ maxHeaders := by
    rw [normal, List.length_append]
    exact Nat.succ_le_succ hroom
  have hread := RequestHead.read_written hne (fun c hc => isTargetChar_of_isUriChar (hpath c hc))
    hwritten hplain hlength r.content
  refine ⟨decode_eq_ok.mpr ⟨_, _, r.content, hwire ▸ hread, ?_, rfl,
    readHeaders_written hwritten, readBody_written r.headers hbody, rfl⟩, encode_normal h⟩
  rw [asciiText_ofString (isAscii_of_mem_tunnelMethods hmethod), Method.ofName?_name]
  rfl

/-- An ordinary request, with headers that are not written as they are and an empty body. -/
def Request.ordinary : Request where
  method := .delete
  path := "/epa/entries/1?force=true&note=%C3%A4"
  headers := [("Accept", "\ttext/plain "), ("TRANSFER-ENCODING", "gzip, CHUNKED"),
    ("X-Note", "größe: 3"), ("content-length", "7"), ("X_Empty", " ")]
  body := some []

/-- The ordinary request as it is written. -/
def Request.ordinaryWire : Bytes := Bytes.ofString
  ("DELETE /epa/entries/1?force=true&note=%C3%A4 HTTP/1.1\r\naccept: text/plain\r\n" ++
    "x-note: größe: 3\r\nx_empty: \r\ncontent-length: 0\r\n\r\n")

theorem Request.round_trip_ordinary : ordinary.encode = .ok ordinaryWire ∧
    decode ordinaryWire = .ok
      { method := .delete, path := "/epa/entries/1?force=true&note=%C3%A4"
        headers := [("accept", "text/plain"), ("x-note", "größe: 3"), ("x_empty", ""),
          ("content-length", "0")]
        body := none } ∧
    ordinary.normal.encode = .ok ordinaryWire := by
  have hwire : ordinary.encode = .ok ordinaryWire := rfl
  have hpath : ordinary.path.toList.all isUriChar = true := rfl
  have hvalues : ∀ h ∈ ordinary.headers, IsPlain h.2 := by decide +kernel
  have hnormal : ordinary.normal =
      { method := .delete, path := "/epa/entries/1?force=true&note=%C3%A4"
        headers := [("accept", "text/plain"), ("x-note", "größe: 3"), ("x_empty", ""),
          ("content-length", "0")]
        body := none } := rfl
  obtain ⟨hdecode, hencode⟩ := round_trip hwire (List.all_eq_true.mp hpath) hvalues
    (by decide) (by decide)
  exact ⟨hwire, hnormal ▸ hdecode, hencode⟩

end Http

end SealedTunnel
