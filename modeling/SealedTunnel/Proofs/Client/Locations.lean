import Mathlib.Data.List.TakeWhile
import SealedTunnel.Client.Endpoint

/-!
# Paths on a host

Where the requests of the protocol go, given the root of a host.

* `Uri.onHost` — a path on a host; its text is the scheme, the host and the path.
* `IsPath` — a path that consists of harmless characters.
* `resolve_onHost`, `certDataUri_onHost` — such a path is always found, and as it is.
* `destination_eq_ok` — the root of a host.
* `IsPath.of_channelId`, `isPath_certDataPath` — the paths of the protocol are such paths.
-/

namespace SealedTunnel

/-- A path on a host. -/
def Uri.onHost (scheme : Scheme) (authority : Authority) (path : String) : Uri :=
  .absolute scheme authority ⟨path, none⟩

theorem Uri.text_onHost (scheme : Scheme) (authority : Authority) {path : String} (h : path ≠ "") :
    (Uri.onHost scheme authority path).text = scheme.text ++ "://" ++ authority.text ++ path := by
  simp [onHost, text, Target.text, h]

/-! ## Paths -/

/-- A path that a request may have: it starts with a slash, and all of it is read as a path. -/
structure IsPath (path : String) : Prop where
  /-- it starts with a slash -/
  slash : path.toList.head? = some '/'
  /-- nothing in it ends it -/
  harmless : ∀ c ∈ path.toList, Target.isPath c = true

instance (path : String) : Decidable (IsPath path) :=
  decidable_of_iff (path.toList.head? = some '/' ∧ path.toList.all Target.isPath = true)
    ⟨fun h => ⟨h.1, List.all_eq_true.mp h.2⟩, fun h => ⟨h.slash, List.all_eq_true.mpr h.harmless⟩⟩

theorem IsPath.exists_cons {path : String} (h : IsPath path) : ∃ cs, path.toList = '/' :: cs := by
  have hslash := h.slash
  cases hlist : path.toList with
  | nil => simp [hlist] at hslash
  | cons c cs =>
    rw [hlist] at hslash
    exact ⟨cs, by rw [Option.some.inj hslash]⟩

theorem IsPath.ne_empty {path : String} (h : IsPath path) : path ≠ "" := by
  rintro rfl
  exact absurd h.slash (by decide)

theorem IsPath.parse {path : String} (h : IsPath path) :
    Target.parse path.toList = .ok ⟨path, none⟩ := by
  have htake := List.takeWhile_eq_self_iff.mpr h.harmless
  have hdrop := List.dropWhile_eq_nil_iff.mpr h.harmless
  simp only [Target.parse, htake, hdrop, String.ofList_toList]

theorem IsPath.ofText {path : String} (h : IsPath path) :
    Target.ofText path = .ok ⟨path, none⟩ := by
  obtain ⟨cs, hcs⟩ := h.exists_cons
  have hparse := h.parse
  have hends : Authority.endsAuthority '/' = true := by decide
  rw [hcs] at hparse
  simp [Target.ofText, hcs, hends, hparse]

theorem resolve_onHost (scheme : Scheme) (authority : Authority) (target : Target) {path : String}
    (h : IsPath path) :
    resolve (.absolute scheme authority target) path = .ok (Uri.onHost scheme authority path) := by
  simp only [resolve, h.ofText, Uri.withTarget]
  rfl

/-! ## Hosts -/

/-- The root of a host is a scheme and an authority with the path `/`. -/
theorem destination_eq_ok {endpoint : String} {root : Uri} :
    destination endpoint = .ok root ↔ ∃ scheme authority target,
      Uri.ofText endpoint = .ok (.absolute scheme authority target) ∧
      root = .onHost scheme authority "/" := by
  have hroot : IsPath "/" := by decide
  simp only [destination]
  cases Uri.ofText endpoint with
  | error fault => simp
  | ok uri =>
    cases uri with
    | bare authority => simp
    | relative target => simp
    | absolute scheme authority target =>
      dsimp only
      rw [resolve_onHost scheme authority target hroot]
      constructor
      · intro h
        exact ⟨scheme, authority, target, rfl, (Except.ok.inj h).symm⟩
      · rintro ⟨scheme', authority', target', huri, rfl⟩
        obtain ⟨rfl, rfl, rfl⟩ := Uri.absolute.inj (Except.ok.inj huri)
        rfl

/-! ## Channel identifiers -/

/-- A byte that may stand in a channel identifier may stand in a path. -/
theorem isPath_of_isCidByte {b : UInt8} (h : isCidByte b = true) :
    Target.isPath (Char.ofNat b.toNat) = true := by
  have hall : ∀ n < 256, isCidByte (UInt8.ofNat n) = true →
      Target.isPath (Char.ofNat n) = true := by decide +kernel
  refine hall b.toNat b.toNat_lt ?_
  rwa [UInt8.ofNat_toNat]

theorem channelId_eq_ok {value : Option Bytes} {cid : String} :
    channelId value = .ok cid ↔ ∃ b, value = some b ∧ isCid b = true ∧ cid = Http.asciiText b := by
  cases value with
  | none => simp [channelId]
  | some b =>
    simp only [channelId]
    split
    · rename_i hcid
      constructor
      · intro h
        exact ⟨b, rfl, hcid, (Except.ok.inj h).symm⟩
      · rintro ⟨b', hb, -, rfl⟩
        rw [Option.some.inj hb]
    · rename_i hcid
      simp [hcid]

/-- A channel identifier is a path. -/
theorem IsPath.of_channelId {value : Option Bytes} {cid : String} (h : channelId value = .ok cid) :
    IsPath cid := by
  obtain ⟨b, rfl, hcid, rfl⟩ := channelId_eq_ok.mp h
  simp only [isCid, Bool.and_eq_true, beq_iff_eq, List.all_eq_true] at hcid
  obtain ⟨⟨-, hslash⟩, hbytes⟩ := hcid
  constructor
  · cases b with
    | nil => simp at hslash
    | cons x rest =>
      obtain rfl := Option.some.inj hslash
      simp [Http.asciiText]
  · intro c hc
    simp only [Http.asciiText, String.toList_ofList, List.mem_map] at hc
    obtain ⟨x, hx, rfl⟩ := hc
    exact isPath_of_isCidByte (hbytes x hx)

/-! ## Certificates -/

/-- The digits that hashes and versions are written with. -/
def hashDigits : List Char := "0123456789abcdef".toList

theorem mem_hashDigits_of_mem_hexChars {b : Bytes} {c : Char} (h : c ∈ Bytes.hexChars b) :
    c ∈ hashDigits := by
  have hdigit : ∀ n < 16, Bytes.hexDigit n ∈ hashDigits := by decide
  induction b with
  | nil => simp [Bytes.hexChars] at h
  | cons x rest ih =>
    have hx : x.toNat < 256 := x.toNat_lt
    simp only [Bytes.hexChars, List.mem_cons] at h
    obtain rfl | rfl | h := h
    · exact hdigit _ (by omega)
    · exact hdigit _ (by omega)
    · exact ih h

theorem mem_hashDigits_of_isDigit {c : Char} (h : c.isDigit = true) : c ∈ hashDigits := by
  simp only [Char.isDigit, Bool.and_eq_true, decide_eq_true_eq] at h
  obtain ⟨hlow, hhigh⟩ := h
  have hhigh' : c.toNat < 58 := Nat.lt_succ_of_le (UInt32.le_iff_toNat_le.mp hhigh)
  have hall : ∀ n < 58, 48 ≤ n → Char.ofNat n ∈ hashDigits := by decide
  have hc := hall c.toNat hhigh' (UInt32.le_iff_toNat_le.mp hlow)
  rwa [Char.ofNat_toNat] at hc

/-- What the certificates of a responder are found under, character by character. -/
theorem exists_toList_certDataPath (certHash : Bytes) (version : UInt64) :
    ∃ tail, (certDataPath certHash version).toList = "/CertData.".toList ++ tail ∧
      ∀ c ∈ tail, c ∈ '-' :: hashDigits := by
  refine ⟨Bytes.hexChars certHash ++ '-' :: Nat.toDigits 10 version.toNat, ?_, fun c hc => ?_⟩
  · show (("/CertData." ++ Bytes.hex certHash) ++ "-" ++ version.toNat.repr).toList = _
    simp [Bytes.hex, Nat.repr_eq_ofList_toDigits]
  · simp only [List.mem_append, List.mem_cons] at hc
    obtain hhash | rfl | hdigit := hc
    · exact List.mem_cons_of_mem _ (mem_hashDigits_of_mem_hexChars hhash)
    · exact List.mem_cons_self
    · exact List.mem_cons_of_mem _
        (mem_hashDigits_of_isDigit (Nat.isDigit_of_mem_toDigits (by decide) (by decide) hdigit))

/-- It is a path. -/
theorem isPath_certDataPath (certHash : Bytes) (version : UInt64) :
    IsPath (certDataPath certHash version) := by
  obtain ⟨tail, hlist, htail⟩ := exists_toList_certDataPath certHash version
  have hname : ∀ c ∈ "/CertData.".toList, Target.isPath c = true :=
    List.all_eq_true.mp (by decide)
  have hall : ∀ c ∈ '-' :: hashDigits, Target.isPath c = true := List.all_eq_true.mp (by decide)
  constructor
  · rw [hlist]
    rfl
  · intro c hc
    rw [hlist] at hc
    obtain hc | hc := List.mem_append.mp hc
    · exact hname c hc
    · exact hall c (htail c hc)

theorem certDataUri_onHost (scheme : Scheme) (authority : Authority) (target : Target)
    (certHash : Bytes) (version : UInt64) :
    certDataUri (.absolute scheme authority target) certHash version =
      .ok (Uri.onHost scheme authority (certDataPath certHash version)) := by
  simp only [certDataUri, (isPath_certDataPath certHash version).ofText, Uri.withTarget]
  rfl

end SealedTunnel
