import Mathlib.Data.Bool.AllAny
import SealedTunnel.Client.Pool
import SealedTunnel.Proofs.Client.Handshake
import SealedTunnel.Proofs.Uri.RoundTrip

/-!
# Where requests go

Whatever a responder sends, the requests of a channel go to the host of its endpoint, to a path that
means what it says. A text for such a request leads to the same place again, if it is not too long
to be read at all.

* `IsStraight` — a path without query, fragment, encoded character or step.
* `ProtocolPath` — the paths of the protocol; `ProtocolPath.isStraight`.
* `Establishment.requests_on_host` — all requests go there, and their texts come back.
-/

namespace SealedTunnel

/-! ## Straight paths -/

/-- A path that means what it says: nothing in it ends it or stands for something else, and none of
its parts is a step. -/
structure IsStraight (path : String) : Prop where
  /-- it is a path -/
  isPath : IsPath path
  /-- no query, no fragment, no encoded character, no other slash -/
  literal : ∀ c ∈ path.toList, c ≠ '?' ∧ c ≠ '#' ∧ c ≠ '%' ∧ c ≠ '\\'
  /-- no part means the place it is in, or the one above -/
  steps : ∀ part ∈ path.toList.splitOn '/',
    Location.isHere (String.ofList part) = false ∧ Location.isUp (String.ofList part) = false

/-- The characters of a part are characters of the whole. -/
theorem mem_of_mem_splitOn {cs part : List Char} {sep c : Char} (hpart : part ∈ cs.splitOn sep)
    (hc : c ∈ part) : c ∈ cs := by
  have hmem : part ∈ (cs.splitOn sep).intersperse [sep] := by
    obtain ⟨i, hi⟩ := List.mem_iff_getElem?.mp hpart
    exact List.mem_of_getElem? (List.getElem?_intersperse_two_mul.trans hi)
  have hjoined : [sep].intercalate (cs.splitOn sep) = cs := List.intercalate_splitOn sep
  rw [← hjoined]
  exact List.mem_flatten.mpr ⟨part, hmem, hc⟩

theorem Text.toLower_of_sameWord {a b : String} (h : Text.sameWord a b = true) :
    a.toList.map Char.toLower = b.toList.map Char.toLower := by
  have hlower : Text.lower a = Text.lower b := eq_of_beq h
  simpa [Text.lower] using congrArg String.toList hlower

/-- The ways to write a step, first to the place itself and then to the one above. -/
def Location.stepWords : List String :=
  [".", "%2e"] ++ ["..", ".%2e", "%2e.", "%2e%2e"]

/-- A step contains a full stop or a percent sign, and few other characters. -/
theorem Location.chars_of_step {part : List Char}
    (h : isHere (String.ofList part) = true ∨ isUp (String.ofList part) = true) :
    (∃ c ∈ part, c.toLower = '.' ∨ c.toLower = '%') ∧
      ∀ c ∈ part, c.toLower ∈ ['.', '%', '2', 'e'] := by
  obtain ⟨word, hword, hsame⟩ : ∃ word ∈ stepWords,
      Text.sameWord (String.ofList part) word = true := by
    obtain h | h := h
    · obtain ⟨word, hword, hsame⟩ := List.any_eq_true.mp h
      exact ⟨word, List.mem_append_left _ hword, hsame⟩
    · obtain ⟨word, hword, hsame⟩ := List.any_eq_true.mp h
      exact ⟨word, List.mem_append_right _ hword, hsame⟩
  have hlower := Text.toLower_of_sameWord hsame
  rw [String.toList_ofList] at hlower
  have hall : ∀ word ∈ stepWords,
      ('.' ∈ word.toList.map Char.toLower ∨ '%' ∈ word.toList.map Char.toLower) ∧
        word.toList.map Char.toLower ⊆ ['.', '%', '2', 'e'] := by decide
  obtain ⟨hsome, hchars⟩ := hall word hword
  rw [← hlower] at hsome hchars
  refine ⟨?_, fun c hc => hchars (List.mem_map_of_mem hc)⟩
  obtain hdot | hpercent := hsome
  · obtain ⟨c, hc, hlow⟩ := List.mem_map.mp hdot
    exact ⟨c, hc, .inl hlow⟩
  · obtain ⟨c, hc, hlow⟩ := List.mem_map.mp hpercent
    exact ⟨c, hc, .inr hlow⟩

/-- What lacks those characters, or has another one, is no step. -/
theorem Location.not_step {part : List Char}
    (h : (∀ c ∈ part, c.toLower ≠ '.' ∧ c.toLower ≠ '%') ∨
      ∃ c ∈ part, c.toLower ∉ ['.', '%', '2', 'e']) :
    isHere (String.ofList part) = false ∧ isUp (String.ofList part) = false := by
  rw [← Bool.not_eq_true, ← Bool.not_eq_true, ← not_or]
  intro hstep
  obtain ⟨⟨c, hc, hmark⟩, hall⟩ := chars_of_step hstep
  obtain hnone | ⟨c', hc', hother⟩ := h
  · exact hmark.elim (hnone c hc).1 (hnone c hc).2
  · exact hother (hall c' hc')

theorem IsPath.literal {path : String} (h : IsPath path)
    (hplain : ∀ c ∈ path.toList, c ≠ '%' ∧ c ≠ '\\') :
    ∀ c ∈ path.toList, c ≠ '?' ∧ c ≠ '#' ∧ c ≠ '%' ∧ c ≠ '\\' := by
  intro c hc
  have hpath := h.harmless c hc
  refine ⟨?_, ?_, hplain c hc⟩
  · rintro rfl
    exact absurd hpath (by decide)
  · rintro rfl
    exact absurd hpath (by decide)

/-- A path without full stops has no steps. -/
theorem IsPath.isStraight {path : String} (h : IsPath path)
    (hplain : ∀ c ∈ path.toList, c.toLower ≠ '.' ∧ c.toLower ≠ '%' ∧ c ≠ '\\') :
    IsStraight path where
  isPath := h
  literal := by
    refine h.literal fun c hc => ⟨?_, (hplain c hc).2.2⟩
    rintro rfl
    exact (hplain '%' hc).2.1 (by decide)
  steps := fun part hpart => Location.not_step <| .inl fun c hc =>
    have hmem := hplain c (mem_of_mem_splitOn hpart hc)
    ⟨hmem.1, hmem.2.1⟩

/-- In the path of certificates the full stop stands inside a part. -/
theorem isStraight_certDataPath (certHash : Bytes) (version : UInt64) :
    IsStraight (certDataPath certHash version) := by
  have hpath := isPath_certDataPath certHash version
  obtain ⟨tail, hlist, htail⟩ := exists_toList_certDataPath certHash version
  have hname : ∀ c ∈ "/CertData.".toList, c ≠ '%' ∧ c ≠ '\\' :=
    List.all_iff_forall_prop.mp (by decide)
  have hdigits : ∀ c ∈ '-' :: hashDigits, c ≠ '%' ∧ c ≠ '\\' :=
    List.all_iff_forall_prop.mp (by decide)
  have hplain : ∀ c ∈ (certDataPath certHash version).toList, c ≠ '%' ∧ c ≠ '\\' := by
    intro c hc
    rw [hlist] at hc
    obtain hc | hc := List.mem_append.mp hc
    · exact hname c hc
    · exact hdigits c (htail c hc)
  refine ⟨hpath, hpath.literal hplain, fun part hpart => ?_⟩
  have hparts : (certDataPath certHash version).toList.splitOn '/' =
      [[], "CertData.".toList ++ tail] := by
    have hslash : '/' ∉ "CertData.".toList ++ tail := by
      intro hmem
      obtain hmem | hmem := List.mem_append.mp hmem
      · exact absurd hmem (by decide)
      · exact absurd (htail _ hmem) (by decide)
    rw [hlist]
    show ('/' :: ("CertData.".toList ++ tail)).splitOn '/' = _
    rw [List.splitOn_cons_eq_if_modifyHead, if_pos (by decide), List.splitOn_eq_singleton hslash]
  rw [hparts] at hpart
  obtain rfl | hpart := List.mem_cons.mp hpart
  · exact Location.not_step (.inl nofun)
  · obtain rfl := List.mem_singleton.mp hpart
    exact Location.not_step (.inr ⟨'C', List.mem_cons_self, by decide⟩)

/-! ## The paths of the protocol -/

/-- The paths that a channel has requests for. -/
inductive ProtocolPath : String → Prop
  /-- message 1 -/
  | handshake : ProtocolPath "/VAU"
  /-- certificates, by a hash and a version that a responder names -/
  | certificates (certHash : Bytes) (version : UInt64) :
    ProtocolPath ("/CertData." ++ Bytes.hex certHash ++ "-" ++ version.toNat.repr)
  /-- message 3 and frames, by an identifier that a responder names -/
  | channel {value : Option Bytes} {cid : String} (identified : channelId value = .ok cid) :
    ProtocolPath cid

theorem isStraight_of_channelId {value : Option Bytes} {cid : String}
    (h : channelId value = .ok cid) : IsStraight cid := by
  refine (IsPath.of_channelId h).isStraight fun c hc => ?_
  obtain ⟨b, rfl, hcid, rfl⟩ := channelId_eq_ok.mp h
  simp only [Http.asciiText, String.toList_ofList, List.mem_map] at hc
  obtain ⟨x, hx, rfl⟩ := hc
  have hbyte : isCidByte x = true := by
    simp only [isCid, Bool.and_eq_true, List.all_eq_true] at hcid
    exact hcid.2 x hx
  have hall : ∀ n < 256, isCidByte (UInt8.ofNat n) = true → (Char.ofNat n).toLower ≠ '.' ∧
      (Char.ofNat n).toLower ≠ '%' ∧ Char.ofNat n ≠ '\\' := by decide +kernel
  exact hall x.toNat x.toNat_lt (by rwa [UInt8.ofNat_toNat])

theorem ProtocolPath.isStraight {path : String} (h : ProtocolPath path) : IsStraight path := by
  cases h with
  | handshake =>
    have hpath : IsPath "/VAU" := by decide
    exact hpath.isStraight (List.all_iff_forall_prop.mp (by decide))
  | certificates certHash version => exact isStraight_certDataPath certHash version
  | channel identified => exact isStraight_of_channelId identified

/-! ## Requests -/

/-- A place on the host of an endpoint, printed, is read as that place, or is too long to be
read. -/
theorem Uri.ofText_text_onHost {endpoint : String} {scheme : Scheme} {authority : Authority}
    {target : Target} (h : Uri.ofText endpoint = .ok (.absolute scheme authority target))
    {path : String} (hpath : IsPath path) :
    let text := (Uri.onHost scheme authority path).text
    Uri.ofText text = if text.utf8ByteSize ≤ Uri.maxLength then
      .ok (.onHost scheme authority path) else .error .tooLong := by
  intro text
  split
  case isTrue hlength => exact Uri.ofText_onHost h hpath hlength
  case isFalse hlength =>
    rw [Uri.ofText, if_pos (Nat.lt_of_not_le hlength)]
    rfl

namespace Handshake

variable {ρ : Type} {S : Suite ρ} {policy : TrustPolicy} {environment : Environment}
  {endpoint : String} {scheme : Scheme} {authority : Authority} {as : List Arrival}
  {rs : List Outer.Request}

/-- A handshake is with the host of its endpoint. -/
theorem Begun.uri_eq (b : Begun S environment endpoint)
    (h : destination endpoint = .ok (.onHost scheme authority "/")) (path : String) :
    b.uri path = .onHost scheme authority path := by
  obtain ⟨hscheme, hauthority, -⟩ := Uri.absolute.inj (Except.ok.inj (b.located.symm.trans h))
  rw [uri, hscheme, hauthority]

theorem Trusts.onHost {b : Begun S environment endpoint} {a : Arrival} {o : Opened b a}
    {now : UInt64} {keys : PublicKeys} (h : Trusts o policy rs as now keys) :
    ∀ request ∈ rs, ∃ path, ProtocolPath path ∧ request.uri = b.uri path := by
  cases h with
  | insecure => exact nofun
  | verify =>
    intro request hrequest
    obtain rfl := List.mem_singleton.mp hrequest
    exact ⟨_, .certificates _ _, rfl⟩

/-- Every request of a handshake goes to a path of the protocol on that host. -/
theorem Reached.onHost {e : Establishment}
    (hreached : Reached S policy environment endpoint as rs e)
    (h : destination endpoint = .ok (.onHost scheme authority "/")) :
    ∀ request ∈ rs, ∃ path, ProtocolPath path ∧
      request.uri = .onHost scheme authority path := by
  suffices ∃ b : Begun S environment endpoint, ∀ request ∈ rs, ∃ path, ProtocolPath path ∧
      request.uri = b.uri path by
    obtain ⟨b, hb⟩ := this
    intro request hrequest
    obtain ⟨path, hpath, huri⟩ := hb request hrequest
    exact ⟨path, hpath, huri.trans (b.uri_eq h path)⟩
  cases hreached with
  | message2 b =>
    refine ⟨b, fun request hrequest => ?_⟩
    obtain rfl := List.mem_singleton.mp hrequest
    exact ⟨_, .handshake, rfl⟩
  | certificates b o =>
    refine ⟨b, List.forall_mem_cons.mpr ⟨⟨_, .handshake, rfl⟩, fun request hrequest => ?_⟩⟩
    obtain rfl := List.mem_singleton.mp hrequest
    exact ⟨_, .certificates _ _, rfl⟩
  | message4 b o trusted m =>
    refine ⟨b, List.forall_mem_cons.mpr ⟨⟨_, .handshake, rfl⟩, fun request hrequest => ?_⟩⟩
    obtain hrequest | hrequest := List.mem_append.mp hrequest
    · exact trusted.onHost request hrequest
    · obtain rfl := List.mem_singleton.mp hrequest
      exact ⟨_, .channel o.identified, rfl⟩

/-- And so does every frame of the channel. -/
theorem Completed.onHost {connection : Connection} {session : Session}
    (hcompleted : Completed S policy environment endpoint as rs connection session)
    (h : destination endpoint = .ok (.onHost scheme authority "/")) :
    ProtocolPath connection.cid ∧ connection.uri = .onHost scheme authority connection.cid := by
  cases hcompleted with
  | intro b o => exact ⟨.channel o.identified, b.uri_eq h _⟩

end Handshake

/-- Whatever the endpoint and whatever the replies, all requests of a handshake and all frames of
the channel after it go to the scheme and the host of the endpoint, without a query: message 1 to
`/VAU`, message 3 and the frames to the identifier that came with message 2, and the request for
certificates to the path made from the hash and the version in message 2. Nothing in these paths
ends them, stands for something else, or steps up. What is printed for such a place is read as the
same place, unless it is too long to be read at all. -/
theorem Establishment.requests_on_host {endpoint : String} {root : Uri}
    (h : destination endpoint = .ok root) : ∃ scheme authority target,
      Uri.ofText endpoint = .ok (.absolute scheme authority target) ∧
      root = .absolute scheme authority ⟨"/", none⟩ ∧
      resolve root handshakePath = .ok (.absolute scheme authority ⟨"/VAU", none⟩) ∧
      (∀ value cid, channelId value = .ok cid →
        resolve root cid = .ok (.absolute scheme authority ⟨cid, none⟩)) ∧
      (∀ certHash version, certDataUri root certHash version = .ok (.absolute scheme authority
        ⟨"/CertData." ++ Bytes.hex certHash ++ "-" ++ version.toNat.repr, none⟩)) ∧
      (∀ (ρ : Type) (S : Suite ρ) (policy : TrustPolicy) (environment : Environment) (g : ρ)
        (arrivals : List Arrival),
        let course := perform S policy environment endpoint g arrivals
        (∀ request ∈ course.requests, ∃ path, ProtocolPath path ∧
          request.uri = .absolute scheme authority ⟨path, none⟩) ∧
        ∀ connection session, course.result = some (.ok (connection, session)) →
          ProtocolPath connection.cid ∧ ∀ frame, (Pool.frameRequest connection frame).uri =
            .absolute scheme authority ⟨connection.cid, none⟩) ∧
      ∀ path, ProtocolPath path → IsStraight path ∧
        let text := scheme.text ++ "://" ++ authority.text ++ path
        (Uri.absolute scheme authority ⟨path, none⟩).text = text ∧
        Uri.ofText text = if text.utf8ByteSize ≤ Uri.maxLength then
          .ok (.absolute scheme authority ⟨path, none⟩) else .error .tooLong := by
  obtain ⟨scheme, authority, target, hread, rfl⟩ := destination_eq_ok.mp h
  have hhandshake : IsPath handshakePath := by decide
  refine ⟨scheme, authority, target, hread, rfl, resolve_onHost _ _ _ hhandshake,
    fun value cid hcid => resolve_onHost _ _ _ (IsPath.of_channelId hcid),
    fun certHash version => certDataUri_onHost .., ?_, fun path hpath => ?_⟩
  · intro ρ S policy environment g arrivals course
    obtain ⟨hnone, error, herror⟩ | ⟨before, e, -, hreached, hcompleted⟩ :=
      perform_reached S policy environment endpoint g arrivals
    · rw [show course.requests = [] from hnone]
      exact ⟨nofun, fun connection session hok => nomatch herror.symm.trans hok⟩
    · refine ⟨hreached.onHost h, fun connection session hok => ?_⟩
      obtain ⟨a, -, hcompleted⟩ := hcompleted connection session hok
      obtain ⟨hcid, huri⟩ := hcompleted.onHost h
      exact ⟨hcid, fun frame => huri⟩
  · have hstraight := hpath.isStraight
    have htext := Uri.text_onHost scheme authority hstraight.isPath.ne_empty
    refine ⟨hstraight, htext, ?_⟩
    rw [← htext]
    exact Uri.ofText_text_onHost hread hstraight.isPath

theorem Establishment.requests_on_host_sample :
    let root := Uri.absolute .https ⟨"user@vau.example:8443"⟩ ⟨"/", none⟩
    let value := some (Bytes.ofString "//evil/x")
    destination "https://user@vau.example:8443/epa?x=1" = .ok root ∧
      channelId value = .ok "//evil/x" ∧
      resolve root "//evil/x" =
        .ok (.absolute .https ⟨"user@vau.example:8443"⟩ ⟨"//evil/x", none⟩) := by
  intro root value
  have hdestination : destination "https://user@vau.example:8443/epa?x=1" = .ok root := by rfl
  have hcid : channelId value = .ok "//evil/x" := by rfl
  obtain ⟨scheme, authority, target, -, hroot, -, hchannel, -⟩ := requests_on_host hdestination
  obtain ⟨rfl, rfl, -⟩ := Uri.absolute.inj hroot
  exact ⟨hdestination, hcid, hchannel value _ hcid⟩

theorem length_le_utf8ByteSize (cs : List Char) :
    cs.length ≤ (String.ofList cs).utf8ByteSize := by
  induction cs with
  | nil => exact Nat.zero_le _
  | cons c cs ih =>
    have hc := c.utf8Size_pos
    rw [String.ofList_cons, String.utf8ByteSize_append, String.utf8ByteSize_singleton,
      List.length_cons]
    omega

theorem Bytes.length_hexChars (b : Bytes) : (hexChars b).length = 2 * b.length := by
  induction b with
  | nil => rfl
  | cons x b ih =>
    simp only [hexChars, List.length_cons, ih]
    omega

/-- If a responder names a hash of 32 KiB, the place of the certificates is still on the host, but
what is printed for it is not read again. -/
theorem Establishment.not_requests_on_host :
    let root := Uri.absolute .http ⟨"a"⟩ ⟨"/", none⟩
    let path := certDataPath (List.replicate 32768 0) 0
    destination "http://a" = .ok root ∧
      certDataUri root (List.replicate 32768 0) 0 = .ok (.absolute .http ⟨"a"⟩ ⟨path, none⟩) ∧
      Uri.ofText (Uri.absolute .http ⟨"a"⟩ ⟨path, none⟩).text = .error .tooLong := by
  intro root path
  refine ⟨rfl, certDataUri_onHost .., ?_⟩
  have hne : path ≠ "" := (isPath_certDataPath _ _).ne_empty
  have htext : (Uri.absolute .http ⟨"a"⟩ ⟨path, none⟩).text = "http" ++ "://" ++ "a" ++
      ("/CertData." ++ Bytes.hex (List.replicate 32768 0) ++ "-" ++ (0 : UInt64).toNat.repr) :=
    Uri.text_onHost .http ⟨"a"⟩ hne
  have hhex : 2 * 32768 ≤ (Bytes.hex (List.replicate 32768 0)).utf8ByteSize := by
    have hchars := length_le_utf8ByteSize (Bytes.hexChars (List.replicate 32768 0))
    rwa [Bytes.length_hexChars, List.length_replicate] at hchars
  have hlength : Uri.maxLength < (Uri.absolute .http ⟨"a"⟩ ⟨path, none⟩).text.utf8ByteSize := by
    rw [htext, Uri.maxLength]
    simp only [String.utf8ByteSize_append]
    omega
  rw [Uri.ofText, if_pos hlength]
  rfl

end SealedTunnel
