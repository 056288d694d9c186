import SealedTunnel.Proofs.Http.Lines

/-!
# Responses that are written and read

A response that is written comes back as it is only if nothing in it breaks its status line or its
header lines. The reason is written as it is.

* `Response.normal` — a response with the headers that are written of it.
* `Response.Legible`, `Response.decode_legible` — what every response that is read is like.
* `Response.encode_eq_ok` — what is written, and when.
* `Response.decode_encode` — what is written is read back if it is legible.
* `Response.encode_of_break`, `Response.split_reason` — a reason with a line break adds a header.
-/

namespace SealedTunnel

namespace Http

/-! ## Digits -/

/-- The byte of a decimal digit. -/
def digitByte (d : Nat) : UInt8 := UInt8.ofNat (48 + d)

theorem digit_digitByte {d : Nat} (h : d < 10) (rest : Bytes) :
    digit (digitByte d :: rest) = .ok (d, rest) := by
  have hall : ∀ d < 10, (0x30 ≤ digitByte d && digitByte d ≤ 0x39) = true ∧
      (digitByte d).toNat - 0x30 = d := by decide
  obtain ⟨hdigit, hvalue⟩ := hall d h
  rw [digit, if_pos hdigit, hvalue]

theorem digit_sound {input rest : Bytes} {d : Nat} (h : digit input = .ok (d, rest)) : d < 10 := by
  cases input with
  | nil => exact nomatch h
  | cons b input =>
    simp only [digit] at h
    split at h
    · rename_i hdigit
      obtain ⟨rfl, -⟩ := Prod.mk.inj (Except.ok.inj h)
      have hle : b.toNat ≤ 57 := (Bool.and_eq_true_iff.mp hdigit).2 |> of_decide_eq_true
      omega
    · exact nomatch h

/-- A digit is written as its byte, -/
theorem ofString_digit {n : Nat} (h : n < 10) : Bytes.ofString (toString n) = [digitByte n] := by
  have hall : ∀ n < 10, Bytes.ofString (String.ofList [n.digitChar]) = [digitByte n] := by
    decide
  rw [Nat.toString_eq_ofList_toDigits, Nat.toDigits_of_lt_base h]
  exact hall n h

/-- and a longer number ends with that of its last digit. -/
theorem ofString_number {n : Nat} (h : 10 ≤ n) : Bytes.ofString (toString n) =
    Bytes.ofString (toString (n / 10)) ++ [digitByte (n % 10)] := by
  have hlast := ofString_digit (Nat.mod_lt n (by decide : 0 < 10))
  rw [Nat.toString_eq_ofList_toDigits, Nat.toDigits_of_lt_base (Nat.mod_lt n (by decide))] at hlast
  rw [Nat.toString_eq_ofList_toDigits, Nat.toDigits_of_base_le (by decide) h, String.ofList_append,
    Bytes.ofString_append, hlast, Nat.toString_eq_ofList_toDigits]

/-! ## The status line -/

/-- A reason is what stands before the end of the line, if that is ASCII. -/
theorem reason_eq_ok {input rest : Bytes} {text : String} :
    reason (0x20 :: input) = .ok (text, rest) ↔
      lineEnd .status (input.dropWhile isValue) = .ok rest ∧
        (if (input.takeWhile isValue).any (0x80 ≤ ·) then "" else
          asciiText (input.takeWhile isValue)) = text := by
  have hreason : reason (0x20 :: input) = lineEnd .status (input.dropWhile isValue) >>= fun rest =>
      .ok (if (input.takeWhile isValue).any (0x80 ≤ ·) then "" else
        asciiText (input.takeWhile isValue), rest) := by
    rw [reason]
    refine bind_congr fun rest => ?_
    split <;> rfl
  simp only [hreason, bind_eq_ok, Except.ok.injEq, Prod.mk.injEq]
  constructor
  · rintro ⟨_, hend, htext, rfl⟩
    exact ⟨hend, htext⟩
  · rintro ⟨hend, htext⟩
    exact ⟨rest, hend, htext, rfl⟩

/-- One of plain ASCII characters is read, -/
theorem reason_written {text : String} (hplain : IsPlain text) (hascii : IsAscii text)
    (rest : Bytes) :
    reason (0x20 :: (Bytes.ofString text ++ 0x0d :: 0x0a :: rest)) = .ok (text, rest) := by
  obtain ⟨htext, hend⟩ := scan (isPlain_iff.mp hplain) (b := 0x0d) (by decide) (0x0a :: rest)
  have hsmall : ¬ (Bytes.ofString text).any (0x80 ≤ ·) = true := by
    simp only [List.any_eq_true, decide_eq_true_eq, not_exists, not_and, UInt8.not_le]
    exact hascii.lt_of_mem
  rw [reason_eq_ok, htext, hend, if_neg hsmall]
  exact ⟨rfl, asciiText_ofString hascii⟩

/-- and no other one. -/
theorem reason_sound {input rest : Bytes} {text : String} (h : reason input = .ok (text, rest)) :
    IsPlain text ∧ IsAscii text := by
  have hempty : IsPlain "" ∧ IsAscii "" := by simp [IsPlain, IsAscii]
  by_cases hspace : ∃ behind, input = 0x20 :: behind
  · obtain ⟨behind, rfl⟩ := hspace
    obtain ⟨-, rfl⟩ := reason_eq_ok.mp h
    split
    · exact hempty
    · rename_i hsmall
      simp only [List.any_eq_true, decide_eq_true_eq, not_exists, not_and, UInt8.not_le] at hsmall
      exact asciiText_sound hsmall fun b hb => List.mem_takeWhile_imp hb
  · rw [reason.eq_2 _ fun behind heq => hspace ⟨behind, heq⟩] at h
    obtain ⟨_, -, h⟩ := bind_eq_ok.mp h
    obtain ⟨rfl, -⟩ := Prod.mk.inj (Except.ok.inj h)
    exact hempty

/-- What is read behind the protocol version. -/
def ResponseHead.readStatus (isOld : Bool) (input : Bytes) :
    Except Stop (ResponseHead × Bytes) := do
  let (hundreds, input) ← digit input
  let (tens, input) ← digit input
  let (ones, input) ← digit input
  let (reason, input) ← Http.reason input
  let (headers, rest) ← Http.headers maxHeaders input
  return ({ isOld, status := hundreds * 100 + tens * 10 + ones, reason, headers }, rest)

theorem ResponseHead.read_eq (input : Bytes) : read input = skipEmptyLines input >>= fun input =>
    version input >>= fun behind => space .version behind >>=
      readStatus (input.take 8 == Bytes.ofString "HTTP/1.0") := rfl

theorem ResponseHead.readStatus_eq_ok {isOld : Bool} {input rest : Bytes} {head : ResponseHead} :
    readStatus isOld input = .ok (head, rest) ↔
      ∃ hundreds tens ones i₁ i₂ i₃ i₄, digit input = .ok (hundreds, i₁) ∧
        digit i₁ = .ok (tens, i₂) ∧ digit i₂ = .ok (ones, i₃) ∧
        Http.reason i₃ = .ok (head.reason, i₄) ∧
        Http.headers maxHeaders i₄ = .ok (head.headers, rest) ∧
        head.status = hundreds * 100 + tens * 10 + ones ∧ head.isOld = isOld := by
  simp only [readStatus, bind_eq_ok]
  constructor
  · rintro ⟨⟨hundreds, i₁⟩, h₁, ⟨tens, i₂⟩, h₂, ⟨ones, i₃⟩, h₃, ⟨text, i₄⟩, h₄, ⟨raws, i₅⟩, h₅, h⟩
    obtain ⟨rfl, rfl⟩ := Prod.mk.inj (Except.ok.inj h)
    exact ⟨hundreds, tens, ones, i₁, i₂, i₃, i₄, h₁, h₂, h₃, h₄, h₅, rfl, rfl⟩
  · rintro ⟨hundreds, tens, ones, i₁, i₂, i₃, i₄, h₁, h₂, h₃, h₄, h₅, hstatus, hold⟩
    refine ⟨⟨hundreds, i₁⟩, h₁, ⟨tens, i₂⟩, h₂, ⟨ones, i₃⟩, h₃, ⟨_, i₄⟩, h₄, ⟨_, rest⟩, h₅, ?_⟩
    rw [← hstatus, ← hold]
    rfl

/-- A status line is read behind the version that is written. -/
theorem ResponseHead.read_version (input : Bytes) :
    read (Bytes.ofString "HTTP/1.1 " ++ input) = readStatus false input := by
  have hbytes : Bytes.ofString "HTTP/1.1 " = Bytes.ofString "HTTP/1.1" ++ [0x20] := rfl
  have hlength : (Bytes.ofString "HTTP/1.1").length = 8 := rfl
  have hold : (Bytes.ofString "HTTP/1.1" == Bytes.ofString "HTTP/1.0") = false := rfl
  rw [hbytes, List.append_assoc, List.singleton_append]
  have htake : (Bytes.ofString "HTTP/1.1" ++ 0x20 :: input).take 8 = Bytes.ofString "HTTP/1.1" :=
    List.take_left' hlength
  have hskip : skipEmptyLines (Bytes.ofString "HTTP/1.1" ++ 0x20 :: input) =
      .ok (Bytes.ofString "HTTP/1.1" ++ 0x20 :: input) := by
    rfl
  calc read (Bytes.ofString "HTTP/1.1" ++ 0x20 :: input)
      = version (Bytes.ofString "HTTP/1.1" ++ 0x20 :: input) >>= fun behind =>
          space .version behind >>= readStatus ((Bytes.ofString "HTTP/1.1" ++
            0x20 :: input).take 8 == Bytes.ofString "HTTP/1.0") := by
        rw [read_eq, hskip]
        rfl
    _ = readStatus false input := by
        rw [version_written, htake, hold]
        rfl

/-- The three digits of a status are followed by a plain reason and by headers. -/
theorem ResponseHead.read_sound {input rest : Bytes} {head : ResponseHead}
    (h : read input = .ok (head, rest)) : head.status ≤ 999 ∧ IsPlain head.reason ∧
      IsAscii head.reason ∧ head.headers.length ≤ maxHeaders ∧
      ∀ raw ∈ head.headers, ∀ b ∈ raw.2, isValue b = true := by
  rw [read_eq] at h
  obtain ⟨i, -, h⟩ := bind_eq_ok.mp h
  obtain ⟨_, -, h⟩ := bind_eq_ok.mp h
  obtain ⟨_, -, h⟩ := bind_eq_ok.mp h
  obtain ⟨hundreds, tens, ones, _, _, _, _, h₁, h₂, h₃, h₄, h₅, hstatus, -⟩ :=
    readStatus_eq_ok.mp h
  have hhundreds := digit_sound h₁
  have htens := digit_sound h₂
  have hones := digit_sound h₃
  obtain ⟨hplain, hascii⟩ := reason_sound h₄
  exact ⟨by omega, hplain, hascii, headers_sound h₅⟩

/-- A status line that is written is read if its status has three digits and its reason is plain, -/
theorem ResponseHead.readStatus_written {status : Nat} (hmin : 100 ≤ status) (hmax : status ≤ 999)
    {text : String} (hplain : IsPlain text) (hascii : IsAscii text) {hs : List Header}
    (hw : ∀ h ∈ hs, IsWritten h) (hvalues : ∀ h ∈ hs, IsPlain h.2)
    (hroom : hs.length ≤ maxHeaders) (rest : Bytes) :
    readStatus false (Bytes.ofString (toString status) ++ 0x20 :: (Bytes.ofString text ++
      0x0d :: 0x0a :: (hs.flatMap headerLine ++ 0x0d :: 0x0a :: rest))) =
      .ok ({ isOld := false, status, reason := text
             headers := hs.map fun h => (Bytes.ofString h.1, Bytes.ofString h.2) }, rest) := by
  have hdigits : Bytes.ofString (toString status) =
      [digitByte (status / 10 / 10), digitByte (status / 10 % 10), digitByte (status % 10)] := by
    rw [ofString_number (by omega), ofString_number (by omega), ofString_digit (by omega)]
    rfl
  rw [hdigits, readStatus_eq_ok]
  refine ⟨_, _, _, _, _, _, _, digit_digitByte (by omega) _, digit_digitByte (by omega) _,
    digit_digitByte (by omega) _, reason_written hplain hascii _,
    headers_written hw hvalues hroom rest, ?_, rfl⟩
  dsimp only
  omega

/-- and one of fewer digits is not. -/
theorem ResponseHead.le_of_readStatus {status : Nat} {isOld : Bool} {input rest : Bytes}
    {head : ResponseHead}
    (h : readStatus isOld (Bytes.ofString (toString status) ++ 0x20 :: input) = .ok (head, rest)) :
    100 ≤ status := by
  obtain ⟨hundreds, tens, ones, i₁, i₂, i₃, -, h₁, h₂, h₃, -⟩ := readStatus_eq_ok.mp h
  by_contra hlt
  -- a space stands where the third digit has to be, if not before
  obtain hone | hten := Nat.lt_or_ge status 10
  · rw [ofString_digit hone, List.singleton_append, digit_digitByte hone] at h₁
    obtain ⟨-, rfl⟩ := Prod.mk.inj (Except.ok.inj h₁)
    exact nomatch h₂
  · rw [ofString_number hten, ofString_digit (by omega), List.singleton_append, List.cons_append,
      digit_digitByte (by omega)] at h₁
    obtain ⟨-, rfl⟩ := Prod.mk.inj (Except.ok.inj h₁)
    rw [List.singleton_append, digit_digitByte (by omega)] at h₂
    obtain ⟨-, rfl⟩ := Prod.mk.inj (Except.ok.inj h₂)
    exact nomatch h₃

/-! ## Responses -/

/-- A response with the headers that are written of it. -/
def Response.normal (r : Response) : Response :=
  { r with headers := kept r.headers ++ [lengthHeader r.body.length] }

/-- What every response that is read is like. -/
structure Response.Legible (r : Response) : Prop where
  /-- the status code has no more than three digits -/
  status : r.status ≤ 999
  /-- the reason has no control characters -/
  reason : IsPlain r.reason
  /-- and is ASCII -/
  ascii : IsAscii r.reason
  /-- there is room for the headers -/
  room : r.headers.length ≤ maxHeaders
  /-- their values have no control characters -/
  values : ∀ h ∈ r.headers, IsPlain h.2

/-- A response is read if its head, its headers and its body are. -/
theorem Response.decode_eq_ok {b : Bytes} {r : Response} : decode b = .ok r ↔
    ∃ head rest, ResponseHead.read b = .ok (head, rest) ∧
      head.headers.mapM readHeader = .ok r.headers ∧ readBody r.headers rest = .ok r.body ∧
      head.status = r.status ∧ head.reason = r.reason := by
  simp only [decode, bind_eq_ok, headResult_eq_ok]
  constructor
  · rintro ⟨⟨head, rest⟩, hread, headers, hheaders, body, hbody, h⟩
    obtain rfl := Except.ok.inj h
    exact ⟨head, rest, hread, hheaders, hbody, rfl, rfl⟩
  · rintro ⟨head, rest, hread, hheaders, hbody, hstatus, hreason⟩
    refine ⟨(head, rest), hread, _, hheaders, _, hbody, ?_⟩
    rw [hstatus, hreason]
    rfl

/-- All responses that are read are legible. -/
theorem Response.decode_legible {b : Bytes} {r : Response} (h : decode b = .ok r) :
    r.Legible := by
  obtain ⟨head, rest, hread, hheaders, -, hstatus, hreason⟩ := decode_eq_ok.mp h
  obtain ⟨hmax, hplain, hascii, hroom, hraws⟩ := ResponseHead.read_sound hread
  obtain ⟨hlength, hvalues⟩ := readHeaders_sound hraws hheaders
  exact ⟨hstatus ▸ hmax, hreason ▸ hplain, hreason ▸ hascii, hlength ▸ hroom, hvalues⟩

/-- A response is written if its headers can be, whatever its status and its reason are. -/
theorem Response.encode_eq_ok {r : Response} {wire : Bytes} :
    r.encode = .ok wire ↔ (∀ h ∈ r.headers, Writable h) ∧ Bytes.ofString "HTTP/1.1 " ++
      (Bytes.ofString (toString r.status) ++ 0x20 :: (Bytes.ofString r.reason ++ 0x0d :: 0x0a ::
        (r.normal.headers.flatMap headerLine ++ 0x0d :: 0x0a :: r.body))) = wire := by
  have hspace : Bytes.ofString " " = [0x20] := rfl
  simp only [encode, bind_eq_ok, writtenHeaders_eq_ok, writeMessage_eq, Bytes.ofString_append,
    hspace, List.append_assoc, List.singleton_append, normal]
  constructor
  · rintro ⟨_, ⟨hw, rfl⟩, h⟩
    exact ⟨hw, Except.ok.inj h⟩
  · rintro ⟨hw, rfl⟩
    exact ⟨_, ⟨hw, rfl⟩, rfl⟩

/-- What is written is read back, with its headers in their normal form, if that is legible and the
status has three digits. Any other response comes back as another one or not at all. -/
theorem Response.decode_encode {r : Response} {wire : Bytes} (h : r.encode = .ok wire)
    (hbody : r.body.length < lengthBound) :
    decode wire = .ok r.normal ↔ 100 ≤ r.status ∧ r.normal.Legible := by
  obtain ⟨hw, rfl⟩ := encode_eq_ok.mp h
  have hwritten : ∀ h ∈ r.normal.headers, IsWritten h := fun h hmem => isWritten_of_mem hw hmem
  constructor
  · intro hdecode
    refine ⟨?_, decode_legible hdecode⟩
    obtain ⟨head, rest, hread, -⟩ := decode_eq_ok.mp hdecode
    rw [ResponseHead.read_version] at hread
    exact ResponseHead.le_of_readStatus hread
  · rintro ⟨hmin, hlegible⟩
    have hread := ResponseHead.readStatus_written hmin hlegible.status hlegible.reason
      hlegible.ascii hwritten hlegible.values hlegible.room r.body
    rw [← ResponseHead.read_version] at hread
    exact decode_eq_ok.mpr ⟨_, _, hread, readHeaders_written hwritten,
      readBody_written r.headers hbody, rfl, rfl⟩

/-- A response whose headers are not written as they are. -/
def Response.sample : Response where
  status := 404
  reason := "Not Found"
  headers := [("Content-Type", " text/plain\t"), ("Content-Length", "999"),
    ("Transfer-Encoding", "Chunked")]
  body := [0x67, 0x6f, 0x6e, 0x65]

theorem Response.decode_encode_sample : ∃ wire, Response.sample.encode = .ok wire ∧
    Response.sample.body.length < lengthBound ∧ decode wire = .ok {
      status := 404, reason := "Not Found"
      headers := [("content-type", "text/plain"), ("content-length", "4")]
      body := [0x67, 0x6f, 0x6e, 0x65] } := by
  have hw : ∀ h ∈ Response.sample.headers, Writable h := by decide +kernel
  have hnormal : Response.sample.normal = {
      status := 404, reason := "Not Found"
      headers := [("content-type", "text/plain"), ("content-length", "4")]
      body := [0x67, 0x6f, 0x6e, 0x65] } := by decide +kernel
  have hlegible : Response.sample.normal.Legible := by
    rw [hnormal]
    exact ⟨by decide, by decide +kernel, by decide +kernel, by decide, by decide +kernel⟩
  have hencode := encode_eq_ok.mpr ⟨hw, rfl⟩
  refine ⟨_, hencode, by decide, hnormal ▸ ?_⟩
  exact (decode_encode hencode (by decide)).mpr ⟨by decide, hlegible⟩

/-- A reason may hold a line break and then a header: the response is written as one that has the
header, and without it in the reason. -/
theorem Response.encode_of_break {r : Response} {h written : Header} (hw : Writable h)
    (hform : form h = some written) {text : String}
    (hreason : r.reason = text ++ "\r\n" ++ written.1 ++ ": " ++ written.2) (wire : Bytes) :
    r.encode = .ok wire ↔
      { r with reason := text, headers := h :: r.headers : Response }.encode = .ok wire := by
  have hbreak : Bytes.ofString "\r\n" = [0x0d, 0x0a] := rfl
  have hheaders : kept (h :: r.headers) = written :: kept r.headers :=
    List.filterMap_cons_some hform
  have hwritable : (∀ h' ∈ h :: r.headers, Writable h') ↔ ∀ h' ∈ r.headers, Writable h' := by
    rw [List.forall_mem_cons]
    exact and_iff_right hw
  rw [encode_eq_ok, encode_eq_ok, hwritable]
  simp only [normal, hheaders, hreason, headerLine, Bytes.ofString_append, hbreak,
    List.cons_append, List.flatMap_cons, List.append_assoc, List.nil_append]

/-- So such a reason comes back as a header. -/
theorem Response.split_reason :
    let r : Response := { status := 200, reason := "OK\r\nx-evil: 1", headers := [], body := [] }
    ∃ wire, r.encode = .ok wire ∧ decode wire ≠ .ok r.normal ∧ decode wire = .ok {
      status := 200, reason := "OK", headers := [("x-evil", "1"), ("content-length", "0")]
      body := [] } := by
  intro r
  have hwire : r.encode = .ok (Bytes.ofString
      "HTTP/1.1 200 OK\r\nx-evil: 1\r\ncontent-length: 0\r\n\r\n") := by decide +kernel
  exact ⟨_, hwire, by decide +kernel, by decide +kernel⟩

end Http

end SealedTunnel
