import SealedTunnel.Outer.Transport
import SealedTunnel.Proofs.Uri.Hosts

/-!
# Encryption left to a proxy

What becomes of an identifier when a proxy is to add the encryption: which ones are left as they
are, which ones lose it, and which ones are refused.

* `Uri.IsWritten` — an identifier whose authority was read.
* `downgrade_of_port`, `downgrade_of_standsAlone`, `downgrade_of_not_standsAlone` — one way to each
  outcome.
* `Location.ofUri?_host` — a host without a port is met on the standard one.
* `downgrade_by_port` — the port, as far as it can be read, decides.
-/

namespace SealedTunnel

variable {a : Authority} {t : Target} {uri : Uri} {n : Nat}

/-- An identifier whose authority, if it has one, was read. -/
def Uri.IsWritten : Uri → Prop
  | .absolute _ authority _ => authority.IsWritten
  | _ => True

theorem Uri.isWritten_of_ofText {s : String} (h : Uri.ofText s = .ok uri) : uri.IsWritten := by
  cases uri with
  | absolute scheme authority target => exact Authority.isWritten_of_ofText h
  | bare authority => trivial
  | relative target => trivial

/-- An identifier that asks for encryption. -/
def Uri.IsEncrypted (uri : Uri) : Prop := ∃ a t, uri = .absolute .https a t

/-! ## One way to each outcome -/

theorem downgrade_of_not_isEncrypted (h : ¬ uri.IsEncrypted) : downgrade uri = .ok uri := by
  simp only [downgrade]
  split
  · rename_i a t
    exact absurd ⟨a, t, rfl⟩ h
  · rfl

/-- A port that can be read is the standard one, or refused. -/
theorem downgrade_of_port (h : a.IsWritten) (hport : a.HasRealPort n) (hne : n ≠ 443) :
    downgrade (.absolute .https a t) = .error (.transport
      s!"cannot downgrade {(Uri.absolute .https a t).text}: only port 443 is supported") := by
  have hread := h.port?_eq_some.mpr hport
  simp [downgrade, hread, hne]

/-- Without such a port, all depends on the host. -/
theorem downgrade_of_standard (h : a.IsWritten) (hport : ∀ n, a.HasRealPort n → n = 443) :
    downgrade (.absolute .https a t) = match Authority.ofText a.host with
      | .ok host => .ok (.absolute .http host t)
      | .error fault => .error (.transport fault.message) := by
  have hread : a.port?.any (· ≠ 443) = false := by
    cases hport? : a.port? with
    | none => rfl
    | some n => simp [hport n (h.port?_eq_some.mp hport?)]
  rw [downgrade, hread]
  rfl

theorem downgrade_of_standsAlone (h : a.IsWritten) (hport : ∀ n, a.HasRealPort n → n = 443)
    (ha : a.StandsAlone) :
    downgrade (.absolute .https a t) = .ok (.absolute .http ⟨a.host⟩ t) := by
  rw [downgrade_of_standard h hport, h.ofText_host ha]

theorem downgrade_of_not_standsAlone (h : a.IsWritten) (hport : ∀ n, a.HasRealPort n → n = 443)
    (ha : ¬ a.StandsAlone) :
    downgrade (.absolute .https a t) =
      .error (.transport (if a.host = "" then "empty string" else "invalid authority")) := by
  rw [downgrade_of_standard h hport, h.ofText_host_of_not ha]
  by_cases hempty : a.host = ""
  · simp [hempty, Uri.Fault.message]
  · simp [hempty, Uri.Fault.message]

/-- What is left has no encryption to lose. -/
theorem not_isEncrypted_of_downgrade {v : Uri} (h : downgrade uri = .ok v) : ¬ v.IsEncrypted := by
  rintro ⟨a, t, rfl⟩
  simp only [downgrade] at h
  split at h
  · split at h
    · exact nomatch h
    · split at h
      · exact nomatch h
      · exact nomatch h
  · rename_i hnot
    exact hnot _ _ (Except.ok.inj h)

/-! ## Where a request goes -/

/-- There is no port behind a host. -/
theorem Location.portText?_host (a : Authority) :
    portText? (⟨a.host⟩ : Authority).hostPort = none := by
  rw [Authority.hostPort_host, portText?]
  by_cases hhead : a.hostPort.head? = some '['
  · have hall : ∀ c ∈ a.hostPort.takeWhile (· ≠ ']'), decide (c ≠ ']') = true :=
      fun c hc => List.mem_takeWhile_imp (p := (· ≠ ']')) hc
    rw [Authority.toList_host_of_bracket hhead, List.dropWhile_append_of_pos hall]
    rfl
  · have hcolon := Authority.colon_not_mem_host hhead
    split
    · rename_i rest hdrop
      split
      · -- a colon behind a closing bracket would be in the host
        have hmem : ':' ∈ a.host.toList.dropWhile (· ≠ ']') :=
          hdrop ▸ List.mem_cons_of_mem _ List.mem_cons_self
        exact absurd ((List.dropWhile_sublist _).mem hmem) hcolon
      · rfl
    · have hnil : a.host.toList.dropWhile (· ≠ ':') = [] :=
        List.dropWhile_eq_nil_iff.mpr fun c hc => decide_eq_true fun heq => hcolon (heq ▸ hc)
      rw [hnil]

theorem Location.port?_host (encrypted : Bool) (a : Authority) :
    port? encrypted (⟨a.host⟩ : Authority).hostPort = some none := by
  simp only [port?, portText?_host]

/-- A host without a port is met on the standard one. -/
theorem Location.ofUri?_host {l : Location} (h : ofUri? (.absolute .http ⟨a.host⟩ t) = some l) :
    l.encrypted = false ∧ l.port = none := by
  simp only [ofUri?] at h
  obtain ⟨encrypted, hscheme, h⟩ := Option.bind_eq_some_iff.mp h
  obtain ⟨host, -, h⟩ := Option.bind_eq_some_iff.mp h
  obtain ⟨port, hport, h⟩ := Option.bind_eq_some_iff.mp h
  rw [port?_host] at hport
  obtain rfl := Option.some.inj h
  exact ⟨(Option.some.inj hscheme).symm, (Option.some.inj hport).symm⟩

/-! ## What decides -/

/-- Which identifiers lose their encryption. One that has none is left alone. A port that can be
read has to be 443, and all others are refused; one that cannot be read counts as none. Then the
host is met without encryption on the standard port, if it is an authority by itself. So doing this
twice is the same as doing it once, and a request leaves like this exactly if it is left to a proxy.
-/
theorem downgrade_by_port (h : uri.IsWritten) :
    (¬ uri.IsEncrypted → downgrade uri = .ok uri) ∧
    (∀ a t, uri = .absolute .https a t →
      (∀ n, a.HasRealPort n → n ≠ 443 → downgrade uri =
        .error (.transport s!"cannot downgrade {uri.text}: only port 443 is supported")) ∧
      ((∀ n, a.HasRealPort n → n = 443) →
        (a.StandsAlone → downgrade uri = .ok (.absolute .http ⟨a.host⟩ t)) ∧
        (¬ a.StandsAlone → downgrade uri =
          .error (.transport (if a.host = "" then "empty string" else "invalid authority")))) ∧
      (⟨a.host⟩ : Authority).host = a.host ∧ (⟨a.host⟩ : Authority).writtenPort? = none ∧
      ∀ l, Location.ofUri? (.absolute .http ⟨a.host⟩ t) = some l →
        l.encrypted = false ∧ l.port = none) ∧
    (∀ v, downgrade uri = .ok v → ¬ v.IsEncrypted ∧ downgrade v = .ok v) ∧
    ∀ (transport : Transport) (request : Outer.Request), request.uri = uri →
      (transport.decorate request).map Outer.Request.uri =
        if transport.downgrade then downgrade uri else .ok uri := by
  refine ⟨downgrade_of_not_isEncrypted, ?encrypted, ?twice, ?request⟩
  case encrypted =>
    rintro a t rfl
    refine ⟨fun n hport hne => downgrade_of_port h hport hne, fun hport => ?_,
      Authority.host_host a, Authority.writtenPort?_host a, fun l => Location.ofUri?_host⟩
    exact ⟨downgrade_of_standsAlone h hport, downgrade_of_not_standsAlone h hport⟩
  case twice =>
    intro v hv
    have hnot := not_isEncrypted_of_downgrade hv
    exact ⟨hnot, downgrade_of_not_isEncrypted hnot⟩
  case request =>
    rintro ⟨userAgent, _ | _⟩ request rfl
    · rfl
    · simp only [Transport.decorate, if_true]
      cases downgrade request.uri with
      | error e => rfl
      | ok v => rfl

/-- The standard port goes without saying. -/
theorem downgrade_by_port_standard :
    Uri.ofText "https://user@Vau.example.com:0443/VAU?x=1" =
      .ok (.absolute .https ⟨"user@Vau.example.com:0443"⟩ ⟨"/VAU", some "x=1"⟩) ∧
    downgrade (.absolute .https ⟨"user@Vau.example.com:0443"⟩ ⟨"/VAU", some "x=1"⟩) =
      .ok (.absolute .http ⟨"Vau.example.com"⟩ ⟨"/VAU", some "x=1"⟩) := by
  have hread : Uri.ofText "https://user@Vau.example.com:0443/VAU?x=1" =
      .ok (.absolute .https ⟨"user@Vau.example.com:0443"⟩ ⟨"/VAU", some "x=1"⟩) := rfl
  have hhost : (⟨"user@Vau.example.com:0443"⟩ : Authority).host = "Vau.example.com" := rfl
  have hport : (⟨"user@Vau.example.com:0443"⟩ : Authority).HasPort 443 :=
    ⟨"0443", rfl, ⟨by decide, List.all_eq_true.mp (by decide), by decide⟩⟩
  obtain ⟨-, hencrypted, -⟩ := downgrade_by_port (Uri.isWritten_of_ofText hread)
  obtain ⟨-, hstandard, -⟩ := hencrypted _ _ rfl
  obtain ⟨halone, -⟩ := hstandard fun n hn => hn.1.unique hport
  rw [hhost] at halone
  exact ⟨hread, halone (by rw [Authority.StandsAlone, hhost]; decide)⟩

/-- A port that is no number of 16 bits is not refused: the request leaves without encryption, and
for another port. -/
theorem oversized_port_in_clear :
    ∃ uri a t, Uri.ofText "https://vau.example.com:65536/VAU" = .ok uri ∧
      uri = .absolute .https a t ∧ a.writtenPort? = some "65536" ∧ ¬ a.HasPort 443 ∧
      downgrade uri = .ok (.absolute .http ⟨"vau.example.com"⟩ t) := by
  have hport : (⟨"vau.example.com:65536"⟩ : Authority).HasPort 65536 :=
    ⟨"65536", rfl, ⟨by decide, List.all_eq_true.mp (by decide), by decide⟩⟩
  exact ⟨_, ⟨"vau.example.com:65536"⟩, ⟨"/VAU", none⟩, rfl, rfl, rfl,
    fun h => absurd (h.unique hport) (by decide), rfl⟩

end SealedTunnel
