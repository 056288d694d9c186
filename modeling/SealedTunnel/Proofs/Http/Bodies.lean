import SealedTunnel.Proofs.Http.Requests
import SealedTunnel.Proofs.Http.Responses

/-!
# Where a body ends

A message may state the length of its body. How much of what follows the head is body depends on
the headers with this name alone, and a length that cannot be right is an error.

* `lengthTexts` — the texts in which a head states a length.
* `ShowsLength` — the number that such a text shows; a plus sign may precede it.
* `Framed` — what the body is, or why there is none.
* `readBody_eq_iff`, `body_framed` — this is what is read.
* `not_framed_by_digits` — with a sign in front of the digits, it is not an error.
-/

namespace SealedTunnel

namespace Http

/-! ## Stated lengths -/

/-- The text in which a header states a length, without blanks at the ends. -/
def lengthText? : RawHeader → Option String
  | (name, value) =>
    if Text.sameWord (asciiText name) "content-length" then
      (Bytes.toString? value).map Text.trim
    else none

/-- The texts in which headers state a length. -/
def lengthTexts (raws : List RawHeader) : List String := raws.filterMap lengthText?

/-- The texts in which headers that were read state a length. -/
def statedTexts (headers : List Header) : List String :=
  (headers.filter (·.1 == "content-length")).map Prod.snd

/-- The values of all headers are texts. -/
def HaveTexts (raws : List RawHeader) : Prop :=
  ∀ raw ∈ raws, ∃ text, Bytes.toString? raw.2 = some text

/-- A header is read if its value is a text. -/
theorem readHeader_eq_ok {raw : RawHeader} {h : Header} : readHeader raw = .ok h ↔
    ∃ text, Bytes.toString? raw.2 = some text ∧
      (Text.lower (asciiText raw.1), Text.trim text) = h := by
  obtain ⟨name, value⟩ := raw
  rw [readHeader]
  cases Bytes.toString? value with
  | none => simp
  | some text => simp

/-- All headers are read if their values are texts, -/
theorem HaveTexts.exists_mapM {raws : List RawHeader} (h : HaveTexts raws) :
    ∃ headers, raws.mapM readHeader = .ok headers := by
  induction raws with
  | nil => exact ⟨[], rfl⟩
  | cons raw raws ih =>
    obtain ⟨⟨text, htext⟩, hraws⟩ := List.forall_mem_cons.mp h
    obtain ⟨headers, hheaders⟩ := ih hraws
    have hfirst := readHeader_eq_ok.mpr ⟨text, htext, rfl⟩
    exact ⟨_, mapM_eq_ok.mpr (.cons hfirst (mapM_eq_ok.mp hheaders))⟩

/-- and those that state a length are found among them. -/
theorem statedTexts_eq {raws : List RawHeader} {headers : List Header}
    (h : raws.mapM readHeader = .ok headers) : statedTexts headers = lengthTexts raws := by
  have hname : Text.lower "content-length" = "content-length" := rfl
  have hall := mapM_eq_ok.mp h
  clear h
  induction hall with
  | nil => rfl
  | cons hread _ ih =>
    obtain ⟨text, htext, rfl⟩ := readHeader_eq_ok.mp hread
    rw [lengthTexts, List.filterMap_cons, ← lengthTexts, ← ih, lengthText?, htext,
      Text.sameWord, hname, statedTexts, List.filter_cons]
    dsimp only
    split
    · rfl
    · rfl

/-- The number that a text shows as a length: its digits, possibly with a plus sign in front. -/
def ShowsLength (text : String) (n : Nat) : Prop := Text.IsDecimal (Text.unsigned text.toList) n

/-! ## Bodies -/

/-- What the body of a message is, given the texts in which its length is stated and what follows
its head, or why it has none. What numbers the texts show is a parameter. -/
inductive Framed (shows : String → Nat → Prop) (texts : List String) (rest : Bytes) :
    Except Fault Bytes → Prop where
  /-- no length is stated, and the body is all there is -/
  | unstated : texts = [] → Framed shows texts rest (.ok rest)
  /-- the body is as long as stated -/
  | stated {text : String} {n : Nat} : texts = [text] → shows text n → n < lengthBound →
    n ≤ rest.length → Framed shows texts rest (.ok (rest.take n))
  /-- there is not enough of it -/
  | short {text : String} {n : Nat} : texts = [text] → shows text n → n < lengthBound →
    rest.length < n → Framed shows texts rest (.error (.truncated n rest.length))
  /-- the text shows no number, or one that is too large -/
  | illegible {text : String} : texts = [text] → (∀ n, shows text n → lengthBound ≤ n) →
    Framed shows texts rest (.error (.invalidLength text))
  /-- a length is stated more than once -/
  | repeated {first second : String} {more : List String} : texts = first :: second :: more →
    Framed shows texts rest (.error .duplicateLength)

variable {headers : List Header} {rest : Bytes} {texts : List String}

/-! ### One way to each outcome -/

theorem readBody_of_nil (h : statedTexts headers = []) : readBody headers rest = .ok rest := by
  have hfilter := List.map_eq_nil_iff.mp h
  rw [readBody, statedLength, hfilter]
  rfl

theorem readBody_of_singleton {text : String} (h : statedTexts headers = [text]) :
    readBody headers rest = match Text.readNatural lengthBound text with
      | .ok n =>
        if rest.length < n then .error (.truncated n rest.length) else .ok (rest.take n)
      | .error _ => .error (.invalidLength text) := by
  obtain ⟨⟨name, text'⟩, hfilter, rfl⟩ := List.map_eq_singleton_iff.mp h
  rw [readBody, statedLength, hfilter]
  dsimp only
  cases Text.readNatural lengthBound text' with
  | ok n => rfl
  | error fault => rfl

theorem readBody_of_cons_cons {first second : String} {more : List String}
    (h : statedTexts headers = first :: second :: more) :
    readBody headers rest = .error .duplicateLength := by
  obtain ⟨h₁, hs, hfilter, -, h⟩ := List.map_eq_cons_iff.mp h
  obtain ⟨h₂, hs, rfl, -, -⟩ := List.map_eq_cons_iff.mp h
  rw [readBody, statedLength, hfilter]
  rfl

/-- A text shows a length if it is read as a number of the machine. -/
theorem readNatural_length {text : String} {n : Nat} :
    Text.readNatural lengthBound text = .ok n ↔ ShowsLength text n ∧ n < lengthBound :=
  Text.readNatural_eq_ok (by decide)

/-- What is read as the body is the body there is, and the error is the one there has to be. -/
theorem readBody_eq_iff {outcome : Except Fault Bytes} :
    readBody headers rest = outcome ↔
      Framed ShowsLength (statedTexts headers) rest outcome := by
  constructor
  · rintro rfl
    rcases htexts : statedTexts headers with _ | ⟨text, _ | ⟨second, more⟩⟩
    · rw [readBody_of_nil htexts]
      exact .unstated rfl
    · rw [readBody_of_singleton htexts]
      cases hread : Text.readNatural lengthBound text with
      | error fault =>
        refine .illegible rfl fun n hshows => Nat.le_of_not_lt fun hbound => ?_
        exact nomatch hread.symm.trans (readNatural_length.mpr ⟨hshows, hbound⟩)
      | ok n =>
        obtain ⟨hshows, hbound⟩ := readNatural_length.mp hread
        by_cases hshort : rest.length < n
        · simp only [if_pos hshort]
          exact .short rfl hshows hbound hshort
        · simp only [if_neg hshort]
          exact .stated rfl hshows hbound (Nat.le_of_not_lt hshort)
    · rw [readBody_of_cons_cons htexts]
      exact .repeated rfl
  · intro h
    cases h with
    | unstated htexts => exact readBody_of_nil htexts
    | stated htexts hshows hbound hle =>
      rw [readBody_of_singleton htexts, readNatural_length.mpr ⟨hshows, hbound⟩]
      exact if_neg (Nat.not_lt_of_le hle)
    | short htexts hshows hbound hlt =>
      rw [readBody_of_singleton htexts, readNatural_length.mpr ⟨hshows, hbound⟩]
      exact if_pos hlt
    | @illegible text htexts hlarge =>
      rw [readBody_of_singleton htexts]
      cases hread : Text.readNatural lengthBound text with
      | error fault => rfl
      | ok n =>
        obtain ⟨hshows, hbound⟩ := readNatural_length.mp hread
        exact absurd hbound (Nat.not_lt_of_le (hlarge n hshows))
    | repeated htexts => exact readBody_of_cons_cons htexts

/-! ## Messages -/

/-- The name of a method that is read is a token. -/
theorem RequestHead.exists_method {input rest : Bytes} {head : RequestHead}
    (h : read input = .ok (head, rest)) :
    ∃ method, Method.ofName? (asciiText head.method) = some method := by
  have hsmall : ∀ n < 256, isToken (UInt8.ofNat n) = true → UInt8.ofNat n < 128 := by
    decide +kernel
  obtain ⟨_, _, _, _, _, -, hmethod, hne, -⟩ := read_eq_ok.mp h
  have htoken : ∀ b ∈ head.method, isToken b = true := fun b hb =>
    List.mem_takeWhile_imp (hmethod ▸ hb)
  have hbytes : Bytes.ofString (asciiText head.method) = head.method :=
    ofString_asciiText fun b hb => by
      have hlt := hsmall b.toNat b.toNat_lt
      rw [UInt8.ofNat_toNat] at hlt
      exact hlt (htoken b hb)
  have hvalid : isMethodName (asciiText head.method) = true := by
    simp only [isMethodName, Bool.and_eq_true, decide_eq_true_eq, List.all_eq_true, hbytes]
    refine ⟨fun hempty => hne ?_, htoken⟩
    rw [← hbytes, hempty]
    rfl
  exact ⟨_, dif_pos hvalid⟩

/-- The body of a response is what is read behind its head, -/
theorem Response.map_decode {b : Bytes} {head : ResponseHead}
    (hread : ResponseHead.read b = .ok (head, rest))
    (hheaders : head.headers.mapM readHeader = .ok headers) :
    (decode b).map (·.body) = readBody headers rest := by
  rw [decode, hread, headResult]
  simp only [bind, Except.bind, hheaders]
  cases readBody headers rest with
  | error fault => rfl
  | ok body => rfl

/-- and so is that of a request, where an empty one is none. -/
theorem Request.map_decode {b : Bytes} {head : RequestHead}
    (hread : RequestHead.read b = .ok (head, rest))
    (hheaders : head.headers.mapM readHeader = .ok headers) :
    (decode b).map (·.content) = readBody headers rest := by
  obtain ⟨method, hmethod⟩ := RequestHead.exists_method hread
  rw [decode, hread, headResult]
  simp only [bind, Except.bind, hmethod, hheaders]
  cases readBody headers rest with
  | error fault => rfl
  | ok body =>
    by_cases hnil : body = []
    · simp [hnil, Except.map, pure, Except.pure, content]
    · simp [hnil, Except.map, pure, Except.pure, content]

/-- In every message whose head is read and whose values are texts, the body is what the stated
lengths make of the bytes behind the head, or the error says why there is none. -/
theorem body_framed {b rest : Bytes} :
    (∀ head, ResponseHead.read b = .ok (head, rest) → HaveTexts head.headers → ∀ outcome,
      (Response.decode b).map (·.body) = outcome ↔
        Framed ShowsLength (lengthTexts head.headers) rest outcome) ∧
    ∀ head, RequestHead.read b = .ok (head, rest) → HaveTexts head.headers → ∀ outcome,
      (Request.decode b).map (·.content) = outcome ↔
        Framed ShowsLength (lengthTexts head.headers) rest outcome := by
  constructor
  · intro head hread htexts outcome
    obtain ⟨headers, hheaders⟩ := htexts.exists_mapM
    rw [Response.map_decode hread hheaders, readBody_eq_iff, statedTexts_eq hheaders]
  · intro head hread htexts outcome
    obtain ⟨headers, hheaders⟩ := htexts.exists_mapM
    rw [Request.map_decode hread hheaders, readBody_eq_iff, statedTexts_eq hheaders]

/-- A response that states its length with capitals, blanks and zeros, and says more. -/
def paddedResponse : Bytes :=
  Bytes.ofString "HTTP/1.1 200 OK\r\nCONTENT-LENGTH:  003 \r\n\r\nabcdef"

/-- A request that states the same length twice. -/
def repeatingRequest : Bytes :=
  Bytes.ofString "PUT /a HTTP/1.1\r\nContent-Length: 3\r\ncontent-length: 3\r\n\r\nabc"

theorem body_framed_padded :
    (Response.decode paddedResponse).map (·.body) = .ok (Bytes.ofString "abc") ∧
      (Request.decode repeatingRequest).map (·.content) = .error .duplicateLength := by
  have hread : ResponseHead.read paddedResponse = .ok ({
      isOld := false, status := 200, reason := "OK"
      headers := [(Bytes.ofString "CONTENT-LENGTH", Bytes.ofString "003")] },
      Bytes.ofString "abcdef") := by decide +kernel
  have hread' : RequestHead.read repeatingRequest = .ok ({
      method := Bytes.ofString "PUT", target := "/a"
      headers := [(Bytes.ofString "Content-Length", Bytes.ofString "3"),
        (Bytes.ofString "content-length", Bytes.ofString "3")] },
      Bytes.ofString "abc") := by decide +kernel
  have htexts : lengthTexts [(Bytes.ofString "CONTENT-LENGTH", Bytes.ofString "003")] =
      ["003"] := by decide +kernel
  have htexts' : lengthTexts [(Bytes.ofString "Content-Length", Bytes.ofString "3"),
      (Bytes.ofString "content-length", Bytes.ofString "3")] = ["3", "3"] := by decide +kernel
  have hdigits : ("003".toList).all Char.isDigit = true := rfl
  have hshows : ShowsLength "003" 3 := ⟨by decide, List.all_eq_true.mp hdigits, rfl⟩
  have hbody : Bytes.ofString "abc" = (Bytes.ofString "abcdef").take 3 := rfl
  have hvalue : ∀ text, ∃ text', Bytes.toString? (Bytes.ofString text) = some text' :=
    fun text => ⟨text, Bytes.toString?_ofString text⟩
  constructor
  · rw [hbody]
    exact (body_framed.1 _ hread (List.forall_mem_singleton.mpr (hvalue _)) _).mpr
      (.stated htexts hshows (by decide) (by decide +kernel))
  · exact (body_framed.2 _ hread' (List.forall_mem_cons.mpr
      ⟨hvalue _, List.forall_mem_singleton.mpr (hvalue _)⟩) _).mpr (.repeated htexts')

/-- A response that states its length with a plus sign. -/
def signedResponse : Bytes :=
  Bytes.ofString "HTTP/1.1 200 OK\r\ncontent-length: +3\r\n\r\nabcdef"

/-- A text of anything but digits is not always an error. -/
theorem not_framed_by_digits : ¬ ∀ (b rest : Bytes) (head : ResponseHead),
    ResponseHead.read b = .ok (head, rest) → HaveTexts head.headers → ∀ body,
      (Response.decode b).map (·.body) = .ok body →
        Framed (Text.IsDecimal ·.toList) (lengthTexts head.headers) rest (.ok body) := by
  intro h
  have hread : ResponseHead.read signedResponse = .ok ({
      isOld := false, status := 200, reason := "OK"
      headers := [(Bytes.ofString "content-length", Bytes.ofString "+3")] },
      Bytes.ofString "abcdef") := by decide +kernel
  have hdecode : (Response.decode signedResponse).map (·.body) = .ok (Bytes.ofString "abc") := by
    decide +kernel
  have htexts : lengthTexts [(Bytes.ofString "content-length", Bytes.ofString "+3")] = ["+3"] := by
    decide +kernel
  have hframed := h _ _ _ hread
    (List.forall_mem_singleton.mpr ⟨_, Bytes.toString?_ofString _⟩) _ hdecode
  generalize houtcome : (Except.ok (Bytes.ofString "abc") : Except Fault Bytes) = outcome at hframed
  cases hframed with
  | unstated hnone => exact nomatch htexts.symm.trans hnone
  | stated hone hshows =>
    obtain ⟨rfl, -⟩ := List.cons.inj (htexts.symm.trans hone)
    exact absurd (hshows.digits '+' List.mem_cons_self) (by decide)
  | short => exact nomatch houtcome
  | illegible => exact nomatch houtcome
  | repeated => exact nomatch houtcome

end Http

end SealedTunnel
