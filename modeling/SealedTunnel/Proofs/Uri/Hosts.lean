import Mathlib.Data.List.DropRight
import SealedTunnel.Proofs.Text.Forms
import SealedTunnel.Proofs.Uri.RoundTrip

/-!
# Hosts and ports

Which part of an authority is its host, what stands behind it, and when the host is an authority by
itself.

* `Authority.Scan.Passes`, `Authority.Scan.passes` — what a scan says about the characters in it.
* `Authority.ofText_eq_ok` — an authority is a text that is scanned to its end.
* `Authority.userInfo`, `Authority.afterHost` — what stands in front of the host and behind it.
* `Authority.HasPort`, `Authority.HasRealPort`, `Authority.IsWritten.port?_eq_some` — a port is a
  number behind the last colon after the host.
* `Authority.StandsAlone`, `Authority.IsWritten.ofText_host` — the hosts that are authorities.
-/

namespace SealedTunnel

namespace Authority

/-! ## Scans -/

/-- The characters with a role of their own in an authority. -/
def roles : List Char := [':', '[', ']', '@', '%']

namespace Scan

/-- Nothing has been seen. -/
abbrev start : Scan := ⟨0, false, false, false, false⟩

/-- What a scan that goes well says about the characters that it comes across. -/
structure Passes (s : Scan) (cs : List Char) (t : Scan) : Prop where
  /-- each may stand in an authority -/
  allowed : ∀ c ∈ cs, isPlain c = true ∨ c ∈ roles
  /-- there is one opening bracket at most -/
  opening : '[' ∈ cs → s.opened = false
  /-- and one closing bracket, behind it -/
  closing : ']' ∈ cs → s.closed = false ∧ t.opened = true
  /-- an opening bracket is noticed -/
  opened : t.opened = (s.opened || decide ('[' ∈ cs))
  /-- and so is a closing one -/
  closed : t.closed = (s.closed || decide (']' ∈ cs))
  /-- colons add up as long as counting does not start anew -/
  colons : '@' ∉ cs → ']' ∉ cs → s.colons ≤ t.colons
  /-- and a percent sign is kept in mind as long -/
  percent : '@' ∉ cs → ']' ∉ cs → t.percent = (s.percent || decide ('%' ∈ cs))
  /-- only `@` leaves its mark at the end -/
  afterAt : '@' ∉ cs → s.afterAt = false → t.afterAt = false

variable {s t u : Scan} {cs ds : List Char} {c : Char} {e : Uri.Fault}

theorem Passes.nil (s : Scan) : Passes s [] s := by
  constructor <;> simp

theorem Passes.append (h : Passes s cs t) (h' : Passes t ds u) : Passes s (cs ++ ds) u where
  allowed := List.forall_mem_append.mpr ⟨h.allowed, h'.allowed⟩
  opening hmem := by
    rcases List.mem_append.mp hmem with hmem | hmem
    · exact h.opening hmem
    · have ht := h'.opening hmem
      rw [h.opened, Bool.or_eq_false_iff] at ht
      exact ht.1
  closing hmem := by
    rcases List.mem_append.mp hmem with hmem | hmem
    · obtain ⟨hclosed, hopened⟩ := h.closing hmem
      exact ⟨hclosed, by rw [h'.opened, hopened, Bool.true_or]⟩
    · obtain ⟨hclosed, hopened⟩ := h'.closing hmem
      rw [h.closed, Bool.or_eq_false_iff] at hclosed
      exact ⟨hclosed.1, hopened⟩
  opened := by simp [h'.opened, h.opened, Bool.or_assoc]
  closed := by simp [h'.closed, h.closed, Bool.or_assoc]
  colons hat hclosing := by
    simp only [List.mem_append, not_or] at hat hclosing
    exact (h.colons hat.1 hclosing.1).trans (h'.colons hat.2 hclosing.2)
  percent hat hclosing := by
    simp only [List.mem_append, not_or] at hat hclosing
    simp [h'.percent hat.2 hclosing.2, h.percent hat.1 hclosing.1, Bool.or_assoc]
  afterAt hat hs := by
    simp only [List.mem_append, not_or] at hat
    exact h'.afterAt hat.2 (h.afterAt hat.1 hs)

theorem Passes.step (h : step s c = .ok t) : Passes s [c] t := by
  simp only [Scan.step] at h
  split at h
  case h_1 =>
    split at h
    · exact nomatch h
    · obtain rfl := Except.ok.inj h
      constructor <;> simp [roles]
  case h_2 =>
    split at h
    · exact nomatch h
    · obtain rfl := Except.ok.inj h
      constructor <;> simp_all [roles]
  case h_3 =>
    split at h
    · exact nomatch h
    · obtain rfl := Except.ok.inj h
      constructor <;> simp_all [roles]
  case h_4 =>
    obtain rfl := Except.ok.inj h
    constructor <;> simp [roles]
  case h_5 =>
    obtain rfl := Except.ok.inj h
    constructor <;> simp [roles]
  case h_6 hcolon hopening hclosing hat hpercent =>
    split at h
    · rename_i hplain
      obtain rfl := Except.ok.inj h
      have hopening' : '[' ≠ c := fun h => hopening h.symm
      have hclosing' : ']' ≠ c := fun h => hclosing h.symm
      have hpercent' : '%' ≠ c := fun h => hpercent h.symm
      exact {
        allowed := by simp [hplain]
        opening := by simp [hopening']
        closing := by simp [hclosing']
        opened := by simp [hopening']
        closed := by simp [hclosing']
        colons := fun _ _ => Nat.le_refl _
        percent := by simp [hpercent']
        afterAt := fun _ _ => decide_eq_false hat }
    · exact nomatch h

theorem passes (h : cs.foldlM Scan.step s = .ok t) : Passes s cs t := by
  induction cs generalizing s with
  | nil =>
    obtain rfl := Except.ok.inj h
    exact .nil s
  | cons c cs ih =>
    rw [List.foldlM_cons] at h
    obtain ⟨u, hc, hcs⟩ := bind_eq_ok.mp h
    exact (Passes.step hc).append (ih hcs)

/-- Counting starts anew behind `@`. -/
theorem counts_of_at (h : (cs ++ ['@']).foldlM Scan.step s = .ok t) :
    t.colons = 0 ∧ t.percent = false := by
  rw [List.foldlM_append] at h
  obtain ⟨u, -, hat⟩ := bind_eq_ok.mp h
  obtain ⟨t', hstep, ht⟩ := bind_eq_ok.mp hat
  obtain rfl := Except.ok.inj ht
  obtain rfl := Except.ok.inj hstep
  exact ⟨rfl, rfl⟩

/-- Whether the last character was `@` has no influence on what follows. -/
theorem foldlM_afterAt (s : Scan) (b : Bool) (h : cs ≠ []) :
    cs.foldlM Scan.step { s with afterAt := b } = cs.foldlM Scan.step s := by
  cases cs with
  | nil => exact absurd rfl h
  | cons c cs =>
    simp only [List.foldlM_cons]
    rfl

theorem step_start (h : isPlain c = true) : step start c = .ok start := by
  have hroles : ∀ r ∈ roles, isPlain r = false := by simp [roles, isPlain]
  have hnot : ∀ r ∈ roles, c ≠ r := by
    rintro r hr rfl
    exact absurd h (Bool.eq_false_iff.mp (hroles c hr))
  have hat : decide (c = '@') = false := decide_eq_false (hnot '@' (by decide))
  simp only [step, hat]
  split
  case h_1 => exact absurd rfl (hnot ':' (by decide))
  case h_2 => exact absurd rfl (hnot '[' (by decide))
  case h_3 => exact absurd rfl (hnot ']' (by decide))
  case h_4 => exact absurd rfl (hnot '@' (by decide))
  case h_5 => exact absurd rfl (hnot '%' (by decide))
  case h_6 => rw [if_pos h]

/-- Characters without a role leave no mark. -/
theorem foldlM_start (h : ∀ c ∈ cs, isPlain c = true) : cs.foldlM Scan.step start = .ok start := by
  induction cs with
  | nil => rfl
  | cons c cs ih =>
    obtain ⟨hc, hcs⟩ := List.forall_mem_cons.mp h
    rw [List.foldlM_cons, step_start hc]
    exact ih hcs

theorem step_eq_error (hc : isPlain c = true ∨ c ∈ roles) (h : step s c = .error e) :
    e = .invalidAuthority := by
  simp only [step] at h
  split at h
  case h_1 =>
    split at h
    · exact (Except.error.inj h).symm
    · exact nomatch h
  case h_2 =>
    split at h
    · exact (Except.error.inj h).symm
    · exact nomatch h
  case h_3 =>
    split at h
    · exact (Except.error.inj h).symm
    · exact nomatch h
  case h_4 => exact nomatch h
  case h_5 => exact nomatch h
  case h_6 hcolon hopening hclosing hat hpercent =>
    split at h
    · exact nomatch h
    · rename_i hplain
      have hrole : c ∉ roles := by
        simp only [roles, List.mem_cons, List.not_mem_nil, or_false, not_or]
        exact ⟨hcolon, hopening, hclosing, hat, hpercent⟩
      exact absurd hc (not_or_intro hplain hrole)

/-- Characters that may stand in an authority may still stand in the wrong order. -/
theorem foldlM_eq_error (hcs : ∀ c ∈ cs, isPlain c = true ∨ c ∈ roles)
    (h : cs.foldlM Scan.step s = .error e) : e = .invalidAuthority := by
  induction cs generalizing s with
  | nil => exact nomatch h
  | cons c cs ih =>
    obtain ⟨hc, hcs⟩ := List.forall_mem_cons.mp hcs
    rw [List.foldlM_cons] at h
    cases hstep : step s c with
    | error e' =>
      rw [hstep] at h
      obtain rfl := Except.error.inj h
      exact step_eq_error hc hstep
    | ok t =>
      rw [hstep] at h
      exact ih hcs h

end Scan

open Scan (start)

/-! ## Authorities -/

variable {a : Authority} {s : String} {n : Nat}

theorem not_endsAuthority {c : Char} (h : isPlain c = true ∨ c ∈ roles) :
    (!endsAuthority c) = true := by
  have hplain : ∀ c ∈ ['/', '?', '#'], ¬ (isPlain c = true ∨ c ∈ roles) := by
    simp [roles, isPlain]
  refine Bool.not_eq_true' _ ▸ Bool.eq_false_iff.mpr fun hends => hplain c ?_ h
  simpa [endsAuthority, or_assoc] using hends

/-- A text whose characters may stand in an authority is one if a scan gets to its end. -/
theorem parse_of_allowed {cs : List Char} (h : ∀ c ∈ cs, isPlain c = true ∨ c ∈ roles) :
    cs.takeWhile (!endsAuthority ·) = cs ∧ cs.dropWhile (!endsAuthority ·) = [] :=
  ⟨List.takeWhile_eq_self_iff.mpr fun c hc => not_endsAuthority (h c hc),
    List.dropWhile_eq_nil_iff.mpr fun c hc => not_endsAuthority (h c hc)⟩

theorem ofText_eq_ok : ofText s = .ok a ↔ a = ⟨s⟩ ∧ s ≠ "" ∧
    ∃ t, s.toList.foldlM Scan.step start = .ok t ∧ t.complete = true := by
  simp only [ofText]
  constructor
  · intro h
    obtain ⟨⟨text, rest⟩, hparse, h⟩ := bind_eq_ok.mp h
    obtain ⟨hne, hscan, htext, hrest⟩ := parse_eq_ok.mp hparse
    dsimp only at h
    split at h
    · rename_i hnil
      obtain rfl := Except.ok.inj h
      have hall : text = s.toList := by
        rw [← List.takeWhile_append_dropWhile (p := (!endsAuthority ·)) (l := s.toList), ← htext,
          ← hrest, hnil, List.append_nil]
      refine ⟨by rw [hall, String.ofList_toList], ?_, hall ▸ hscan⟩
      rintro rfl
      exact hne rfl
    · exact nomatch h
  · rintro ⟨rfl, hne, t, hscan, hcomplete⟩
    obtain ⟨htake, hdrop⟩ := parse_of_allowed (Scan.passes hscan).allowed
    have hparse : parse s.toList = .ok (s.toList, []) :=
      parse_eq_ok.mpr ⟨by simpa using hne, ⟨t, hscan, hcomplete⟩, htake.symm, hdrop.symm⟩
    exact bind_eq_ok.mpr ⟨_, hparse, by simp [pure, Except.pure]⟩

theorem ofText_eq_error {fault : Uri.Fault} (hs : ∀ c ∈ s.toList, isPlain c = true ∨ c ∈ roles)
    (h : ofText s = .error fault) : fault = if s = "" then .empty else .invalidAuthority := by
  obtain ⟨htake, hdrop⟩ := parse_of_allowed hs
  by_cases hempty : s = ""
  · subst hempty
    rw [if_pos rfl]
    exact (Except.error.inj h).symm
  · have hne : s.toList ≠ [] := by simpa using hempty
    rw [if_neg hempty]
    simp only [ofText, parse, if_neg hne, htake, hdrop] at h
    cases hscan : s.toList.foldlM Scan.step start with
    | error fault' =>
      rw [hscan] at h
      obtain rfl := Except.error.inj h
      exact Scan.foldlM_eq_error hs hscan
    | ok t =>
      rw [hscan] at h
      by_cases hcomplete : t.complete = true
      · simp [hcomplete, pure, Except.pure, bind, Except.bind] at h
      · simp [hcomplete, bind, Except.bind, throw, throwThe, MonadExceptOf.throw] at h
        exact h.symm

/-- An authority in a text that is read as one. -/
def IsWritten (a : Authority) : Prop := ofText a.text = .ok a

/-- The authority of an identifier that was read is written in its text. -/
theorem isWritten_of_ofText {scheme : Scheme} {target : Target}
    (h : Uri.ofText s = .ok (.absolute scheme a target)) : a.IsWritten := by
  obtain ⟨-, rest, after, -, hparse, hne, -⟩ := Uri.ofText_eq_absolute.mp h
  obtain ⟨-, hscan, -, -⟩ := parse_eq_ok.mp hparse
  refine ofText_eq_ok.mpr ⟨rfl, ?_, hscan⟩
  intro hempty
  rw [hempty] at hne
  exact hne rfl

/-! ## Parts of an authority -/

/-- The user information, with its `@`. -/
def userInfo (a : Authority) : List Char := a.text.toList.rdropWhile (· ≠ '@')

/-- What stands behind the host. -/
def afterHost (a : Authority) : List Char :=
  if a.hostPort.head? = some '[' then (a.hostPort.dropWhile (· ≠ ']')).tail
  else a.hostPort.dropWhile (· ≠ ':')

theorem userInfo_append_hostPort (a : Authority) : a.userInfo ++ a.hostPort = a.text.toList :=
  List.rdropWhile_append_rtakeWhile

theorem at_not_mem_hostPort (a : Authority) : '@' ∉ a.hostPort := by
  intro hmem
  have h := List.mem_rtakeWhile_imp (p := (· ≠ '@')) (l := a.text.toList) hmem
  exact of_decide_eq_true h rfl

/-- There is user information only in front of `@`. -/
theorem userInfo_eq (a : Authority) : a.userInfo = [] ∨ ∃ user, a.userInfo = user ++ ['@'] := by
  rcases List.eq_nil_or_concat a.userInfo with hnil | ⟨user, c, huser⟩
  · exact .inl hnil
  · have hne : a.userInfo ≠ [] := by simp [huser]
    have hlast := List.rdropWhile_last_not (· ≠ '@') a.text.toList hne
    have hat : a.userInfo.getLast hne = '@' :=
      Decidable.not_not.mp fun h => hlast (decide_eq_true h)
    have hc : a.userInfo.getLast hne = c := by simp [huser]
    exact .inr ⟨user, by rw [huser, ← hc, hat, List.concat_eq_append]⟩

/-- What a scan of an authority has seen in front of the host, and what it sees then. -/
theorem IsWritten.scans (h : a.IsWritten) : ∃ s t, a.hostPort.foldlM Scan.step s = .ok t ∧
    s.colons = 0 ∧ s.percent = false ∧ (s.opened = false → s.closed = false) ∧
    t.complete = true := by
  obtain ⟨-, -, t, hscan, hcomplete⟩ := ofText_eq_ok.mp h
  rw [← userInfo_append_hostPort, List.foldlM_append] at hscan
  obtain ⟨s, huser, hhost⟩ := bind_eq_ok.mp hscan
  have hpasses := Scan.passes huser
  have hcounts : s.colons = 0 ∧ s.percent = false := by
    rcases userInfo_eq a with hnil | ⟨user, hat⟩
    · rw [hnil] at huser
      obtain rfl := Except.ok.inj huser
      exact ⟨rfl, rfl⟩
    · rw [hat] at huser
      exact Scan.counts_of_at huser
  refine ⟨s, t, hhost, hcounts.1, hcounts.2, fun hopened => ?_, hcomplete⟩
  rw [hpasses.closed, Bool.false_or, decide_eq_false_iff_not]
  intro hclosing
  rw [(hpasses.closing hclosing).2] at hopened
  exact nomatch hopened

/-- An authority is user information, a host, and what stands behind it. -/
theorem IsWritten.hostPort_eq (h : a.IsWritten) : a.hostPort = a.host.toList ++ a.afterHost := by
  rw [host, afterHost, String.toList_ofList]
  split
  · rename_i hhead
    obtain ⟨s, t, hscan, -, -, hflags, hcomplete⟩ := h.scans
    have hpasses := Scan.passes hscan
    -- the bracket has to be closed again, which it was not before
    have hopening : '[' ∈ a.hostPort := List.mem_of_mem_head? hhead
    have hclosed : t.closed = true := by
      simp only [Scan.complete, Bool.and_eq_true, beq_iff_eq] at hcomplete
      rw [← hcomplete.1.1.1, hpasses.opened, decide_eq_true hopening, Bool.or_true]
    have hclosing : ']' ∈ a.hostPort := by
      rw [hpasses.closed, hflags (hpasses.opening hopening), Bool.false_or] at hclosed
      exact of_decide_eq_true hclosed
    cases hdrop : a.hostPort.dropWhile (· ≠ ']') with
    | nil =>
      have hnot := List.dropWhile_eq_nil_iff.mp hdrop ']' hclosing
      exact absurd rfl (of_decide_eq_true hnot)
    | cons c rest =>
      obtain rfl : c = ']' := by
        have hfirst := List.head?_dropWhile_not (· ≠ ']') a.hostPort
        rw [hdrop] at hfirst
        simpa using hfirst
      rw [List.tail_cons, List.append_assoc, List.singleton_append, ← hdrop,
        List.takeWhile_append_dropWhile]
  · rw [List.takeWhile_append_dropWhile]

theorem toList_host_of_bracket (h : a.hostPort.head? = some '[') :
    a.host.toList = a.hostPort.takeWhile (· ≠ ']') ++ [']'] := by
  rw [host, String.toList_ofList, if_pos h]

theorem toList_host (h : a.hostPort.head? ≠ some '[') :
    a.host.toList = a.hostPort.takeWhile (· ≠ ':') := by
  rw [host, String.toList_ofList, if_neg h]

theorem at_not_mem_host (a : Authority) : '@' ∉ a.host.toList := by
  have hat := at_not_mem_hostPort a
  by_cases hhead : a.hostPort.head? = some '['
  · rw [toList_host_of_bracket hhead, List.mem_append, List.mem_singleton]
    exact not_or_intro (fun h => hat ((List.takeWhile_sublist _).mem h)) (by decide)
  · rw [toList_host hhead]
    exact fun h => hat ((List.takeWhile_sublist _).mem h)

theorem colon_not_mem_host (h : a.hostPort.head? ≠ some '[') : ':' ∉ a.host.toList := by
  rw [toList_host h]
  intro hmem
  exact of_decide_eq_true (List.mem_takeWhile_imp (p := (· ≠ ':')) hmem) rfl

/-- A host has a bracket at its start if it is in brackets. -/
theorem head?_host : a.host.toList.head? = some '[' ↔ a.hostPort.head? = some '[' := by
  by_cases hhead : a.hostPort.head? = some '['
  · rw [toList_host_of_bracket hhead, List.head?_append, List.head?_takeWhile, hhead]
    exact iff_of_true rfl rfl
  · rw [toList_host hhead, List.head?_takeWhile]
    simp [hhead, Option.filter_eq_some_iff]

/-! ## Ports -/

/-- The text of the port: what stands behind the last colon after the host. -/
def writtenPort? (a : Authority) : Option String :=
  if ':' ∈ a.afterHost then some (String.ofList (a.afterHost.rtakeWhile (· ≠ ':'))) else none

/-- The number that the text of the port shows. -/
def HasPort (a : Authority) (n : Nat) : Prop :=
  ∃ text, a.writtenPort? = some text ∧ Text.IsDecimal (Text.unsigned text.toList) n

theorem HasPort.unique {m : Nat} (hn : a.HasPort n) (hm : a.HasPort m) : n = m := by
  obtain ⟨text, htext, hn⟩ := hn
  obtain ⟨text', htext', hm⟩ := hm
  obtain rfl := Option.some.inj (htext.symm.trans htext')
  exact hn.value.symm.trans hm.value

/-- The same if there can be a port with this number: it has 16 bits. -/
def HasRealPort (a : Authority) (n : Nat) : Prop := a.HasPort n ∧ n < 2 ^ 16

/-- What stands behind the last of some characters does not depend on what stands in front of it. -/
theorem rtakeWhile_append {r : Char} {before behind : List Char} (h : r ∈ behind) :
    (before ++ behind).rtakeWhile (· ≠ r) = behind.rtakeWhile (· ≠ r) := by
  have hnot : (behind.reverse.takeWhile (· ≠ r)).length ≠ behind.reverse.length := by
    intro hlength
    have hall := (List.takeWhile_prefix (· ≠ r)).eq_of_length hlength
    have hr := List.takeWhile_eq_self_iff.mp hall r (List.mem_reverse.mpr h)
    exact of_decide_eq_true hr rfl
  simp only [List.rtakeWhile, List.reverse_append, List.reverse_inj]
  rw [List.takeWhile_append, if_neg hnot]

theorem mem_rtakeWhile {r c : Char} {before behind : List Char} (hc : c ≠ r) (h : r ∉ behind) :
    c ∈ (before ++ c :: behind).rtakeWhile (· ≠ r) := by
  have hall : ∀ x ∈ (c :: behind).reverse, decide (x ≠ r) = true := by
    intro x hx
    rcases List.mem_cons.mp (List.mem_reverse.mp hx) with rfl | hx
    · exact decide_eq_true hc
    · exact decide_eq_true fun heq => h (heq ▸ hx)
  rw [List.rtakeWhile, List.reverse_append, List.takeWhile_append_of_pos hall, List.mem_reverse]
  exact List.mem_append_left _ (List.mem_reverse.mpr List.mem_cons_self)

/-- A port is read as the number that some text shows. -/
theorem port?_eq_some_iff : a.port? = some n ↔ ∃ text, a.portText? = some text ∧
    Text.IsDecimal (Text.unsigned text.toList) n ∧ n < 2 ^ 16 := by
  simp only [port?, Option.bind_eq_bind, Option.bind_eq_some_iff]
  refine exists_congr fun text => and_congr_right fun _ => ?_
  rw [← Text.readNatural_eq_ok (by decide)]
  cases Text.readNatural (2 ^ 16) text with
  | error fault => simp [Except.toOption]
  | ok m => simp [Except.toOption]

/-- A colon in front of the end of the host has no number behind it. -/
theorem IsWritten.not_isDecimal {text : String} (h : a.IsWritten) (hafter : ':' ∉ a.afterHost)
    (htext : a.portText? = some text) : ¬ Text.IsDecimal (Text.unsigned text.toList) n := by
  have hparts := userInfo_append_hostPort a
  have hhostPort := h.hostPort_eq
  rw [portText?] at htext
  split at htext
  case isFalse => exact nomatch htext
  case isTrue hcolon =>
    obtain rfl := Option.some.inj htext
    -- what is behind the colon goes on with the end of the host, or of the user information
    obtain ⟨c, hplus, hnot, hmem⟩ : ∃ c, c ≠ '+' ∧ c.isDigit = false ∧
        c ∈ a.text.toList.rtakeWhile (· ≠ ':') := by
      by_cases hhead : a.hostPort.head? = some '['
      · rw [host, String.toList_ofList, if_pos hhead, List.append_assoc,
          List.singleton_append] at hhostPort
        refine ⟨']', by decide, by decide, ?_⟩
        rw [← hparts, hhostPort, ← List.append_assoc]
        exact mem_rtakeWhile (by decide) hafter
      · have hnot : ':' ∉ a.hostPort := by
          rw [hhostPort, List.mem_append]
          exact not_or_intro (colon_not_mem_host hhead) hafter
        rcases userInfo_eq a with hnil | ⟨user, huser⟩
        · rw [← hparts, hnil] at hcolon
          exact absurd hcolon hnot
        · refine ⟨'@', by decide, by decide, ?_⟩
          rw [← hparts, huser, List.append_assoc, List.singleton_append]
          exact mem_rtakeWhile (by decide) hnot
    intro hdecimal
    rw [String.toList_ofList] at hdecimal
    exact Bool.eq_false_iff.mp hnot (hdecimal.digits c (Text.mem_unsigned hmem hplus))

/-- A port is a number of 16 bits behind the last colon after the host. -/
theorem IsWritten.port?_eq_some (h : a.IsWritten) : a.port? = some n ↔ a.HasRealPort n := by
  rw [port?_eq_some_iff, HasRealPort, HasPort, writtenPort?]
  by_cases hafter : ':' ∈ a.afterHost
  · have hcolon : ':' ∈ a.text.toList := by
      rw [← userInfo_append_hostPort, h.hostPort_eq]
      exact List.mem_append_right _ (List.mem_append_right _ hafter)
    have htext : a.portText? = some (String.ofList (a.afterHost.rtakeWhile (· ≠ ':'))) := by
      rw [portText?, if_pos hcolon, ← userInfo_append_hostPort, h.hostPort_eq, ← List.append_assoc]
      exact congrArg (some ∘ String.ofList) (rtakeWhile_append hafter)
    rw [htext, if_pos hafter]
    constructor
    · rintro ⟨text, htext, hdecimal, hn⟩
      exact ⟨⟨text, htext, hdecimal⟩, hn⟩
    · rintro ⟨⟨text, htext, hdecimal⟩, hn⟩
      exact ⟨text, htext, hdecimal, hn⟩
  · rw [if_neg hafter]
    constructor
    · rintro ⟨text, htext, hdecimal, -⟩
      exact absurd hdecimal (h.not_isDecimal hafter htext)
    · rintro ⟨⟨text, htext, -⟩, -⟩
      exact nomatch htext

/-! ## Hosts -/

/-- A host that is an authority by itself: there is one, its brackets belong together, and percent
signs are between them only. -/
def StandsAlone (a : Authority) : Prop :=
  a.host ≠ "" ∧ ('[' ∈ a.host.toList ↔ ']' ∈ a.host.toList) ∧
    ('%' ∈ a.host.toList → '[' ∈ a.host.toList)

instance (a : Authority) : Decidable a.StandsAlone :=
  inferInstanceAs (Decidable (_ ∧ _))

theorem hostPort_host (a : Authority) : (⟨a.host⟩ : Authority).hostPort = a.host.toList :=
  List.rtakeWhile_eq_self_iff.mpr fun _ hc =>
    decide_eq_true fun heq => at_not_mem_host a (heq ▸ hc)

theorem head?_hostPort_host :
    (⟨a.host⟩ : Authority).hostPort.head? = some '[' ↔ a.hostPort.head? = some '[' := by
  rw [hostPort_host, head?_host]

/-- The host of a host is all of it, -/
theorem host_host (a : Authority) : (⟨a.host⟩ : Authority).host = a.host := by
  refine String.toList_inj.mp ?_
  by_cases hhead : a.hostPort.head? = some '['
  · have hall : ∀ c ∈ a.hostPort.takeWhile (· ≠ ']'), decide (c ≠ ']') = true :=
      fun c hc => List.mem_takeWhile_imp (p := (· ≠ ']')) hc
    rw [toList_host_of_bracket (head?_hostPort_host.mpr hhead), hostPort_host,
      toList_host_of_bracket hhead, List.takeWhile_append_of_pos hall]
    simp
  · rw [toList_host (head?_hostPort_host.not.mpr hhead), hostPort_host, toList_host hhead,
      List.takeWhile_idem]

/-- so that there is nothing behind it, -/
theorem afterHost_host (a : Authority) : (⟨a.host⟩ : Authority).afterHost = [] := by
  by_cases hhead : a.hostPort.head? = some '['
  · have hall : ∀ c ∈ a.hostPort.takeWhile (· ≠ ']'), decide (c ≠ ']') = true :=
      fun c hc => List.mem_takeWhile_imp (p := (· ≠ ']')) hc
    rw [afterHost, if_pos (head?_hostPort_host.mpr hhead), hostPort_host,
      toList_host_of_bracket hhead, List.dropWhile_append_of_pos hall]
    simp
  · rw [afterHost, if_neg (head?_hostPort_host.not.mpr hhead), hostPort_host]
    refine List.dropWhile_eq_nil_iff.mpr fun c hc => decide_eq_true ?_
    rintro rfl
    exact colon_not_mem_host hhead hc

/-- and no port. -/
theorem writtenPort?_host (a : Authority) : (⟨a.host⟩ : Authority).writtenPort? = none := by
  rw [writtenPort?, afterHost_host, if_neg List.not_mem_nil]

theorem standsAlone_of_ofText (h : ofText a.host = .ok ⟨a.host⟩) : a.StandsAlone := by
  obtain ⟨-, hne, t, hscan, hcomplete⟩ := ofText_eq_ok.mp h
  have hpasses := Scan.passes hscan
  simp only [Scan.complete, Bool.and_eq_true, Bool.not_eq_true', beq_iff_eq] at hcomplete
  obtain ⟨⟨⟨hbrackets, -⟩, -⟩, hpercent⟩ := hcomplete
  rw [hpasses.opened, hpasses.closed, Bool.false_or, Bool.false_or, decide_eq_decide] at hbrackets
  refine ⟨hne, hbrackets, fun hmem => Decidable.byContradiction fun hopening => ?_⟩
  have hnoClosing := hbrackets.not.mp hopening
  rw [hpasses.percent (at_not_mem_host a) hnoClosing, decide_eq_true hmem] at hpercent
  exact nomatch hpercent

theorem IsWritten.allowed_host (h : a.IsWritten) :
    ∀ c ∈ a.host.toList, isPlain c = true ∨ c ∈ roles := by
  obtain ⟨s, t, hscan, -⟩ := h.scans
  rw [h.hostPort_eq] at hscan
  exact fun c hc => (Scan.passes hscan).allowed c (List.mem_append_left _ hc)

/-- A host without brackets consists of characters without a role. -/
theorem IsWritten.isPlain_host (h : a.IsWritten) (hopening : '[' ∉ a.host.toList)
    (ha : a.StandsAlone) : ∀ c ∈ a.host.toList, isPlain c = true := by
  obtain ⟨-, hbrackets, hpercent⟩ := ha
  have hhead : a.hostPort.head? ≠ some '[' := fun hhead =>
    hopening (List.mem_of_mem_head? (head?_host.mpr hhead))
  intro c hc
  rcases h.allowed_host c hc with hplain | hrole
  · exact hplain
  · simp only [roles, List.mem_cons, List.not_mem_nil, or_false] at hrole
    rcases hrole with rfl | rfl | rfl | rfl | rfl
    · exact absurd hc (colon_not_mem_host hhead)
    · exact absurd hc hopening
    · exact absurd (hbrackets.mpr hc) hopening
    · exact absurd hc (at_not_mem_host a)
    · exact absurd (hpercent hc) hopening

/-- A host with brackets is scanned by itself as it was in its place. -/
theorem IsWritten.scan_host (h : a.IsWritten) (hopening : '[' ∈ a.host.toList)
    (hclosing : ']' ∈ a.host.toList) :
    ∃ t, a.host.toList.foldlM Scan.step start = .ok t ∧ t.complete = true := by
  obtain ⟨s, u, hscan, hcolons, hpercent, hflags, hcomplete⟩ := h.scans
  rw [h.hostPort_eq, List.foldlM_append] at hscan
  obtain ⟨t, hhost, hafter⟩ := bind_eq_ok.mp hscan
  have hpasses := Scan.passes hhost
  have hpasses' := Scan.passes hafter
  have hopened := hpasses.opening hopening
  have hclosed : t.closed = true := by rw [hpasses.closed, decide_eq_true hclosing, Bool.or_true]
  -- the scan of the whole authority came to the host with nothing that counts
  have hstart : s = { start with afterAt := s.afterAt } := by
    obtain ⟨colons, opened, closed, percent, afterAt⟩ := s
    obtain rfl : colons = 0 := hcolons
    obtain rfl : percent = false := hpercent
    obtain rfl : opened = false := hopened
    obtain rfl : closed = false := hflags rfl
    rfl
  rw [hstart, Scan.foldlM_afterAt _ _ (List.ne_nil_of_mem hopening)] at hhost
  -- and nothing behind the host takes back what counts there
  have hat : '@' ∉ a.afterHost := fun hmem =>
    at_not_mem_hostPort a (h.hostPort_eq ▸ List.mem_append_right _ hmem)
  have hbehind : ']' ∉ a.afterHost := fun hmem =>
    nomatch hclosed.symm.trans (hpasses'.closing hmem).1
  simp only [Scan.complete, Bool.and_eq_true, Bool.not_eq_true', beq_iff_eq,
    decide_eq_true_eq] at hcomplete ⊢
  obtain ⟨⟨⟨-, hcolons'⟩, -⟩, hpercent'⟩ := hcomplete
  refine ⟨t, hhost, ⟨⟨?_, ?_⟩, ?_⟩, ?_⟩
  · rw [hclosed, (hpasses.closing hclosing).2]
  · exact (hpasses'.colons hat hbehind).trans hcolons'
  · exact (Scan.passes hhost).afterAt (at_not_mem_host a) rfl
  · rw [hpasses'.percent hat hbehind, Bool.or_eq_false_iff] at hpercent'
    exact hpercent'.1

/-- The host of an authority that was read is an authority by itself if it stands alone, -/
theorem IsWritten.ofText_host (h : a.IsWritten) (ha : a.StandsAlone) :
    ofText a.host = .ok ⟨a.host⟩ := by
  refine ofText_eq_ok.mpr ⟨rfl, ha.1, ?_⟩
  by_cases hopening : '[' ∈ a.host.toList
  · exact h.scan_host hopening (ha.2.1.mp hopening)
  · exact ⟨start, Scan.foldlM_start (h.isPlain_host hopening ha), rfl⟩

/-- and none otherwise. -/
theorem IsWritten.ofText_host_of_not (h : a.IsWritten) (ha : ¬ a.StandsAlone) :
    ofText a.host = .error (if a.host = "" then .empty else .invalidAuthority) := by
  cases hread : ofText a.host with
  | ok b =>
    obtain ⟨rfl, -⟩ := ofText_eq_ok.mp hread
    exact absurd (standsAlone_of_ofText hread) ha
  | error fault => rw [ofText_eq_error h.allowed_host hread]

end Authority

end SealedTunnel
