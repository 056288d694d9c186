import SealedTunnel.Proofs.Checks
import SealedTunnel.Proofs.Client.Locations

/-!
# Identifiers that are printed and read again

* `Scheme.parse_eq_some`, `Authority.parse_eq_ok`, `Uri.ofText_eq_absolute` — what an absolute
  identifier is read from.
* `Scheme.ofName_text` — a scheme that was read is read again in the same way.
* `Uri.ofText_onHost` — so is a path on a host that was read.
* `destination_text`, `destination_of_text` — the root of a host is its own root when it is printed
  and read again.
* `root_eq_of_text` — roots of hosts are told apart by how they are printed.
-/

namespace SealedTunnel

/-! ## Schemes -/

namespace Scheme

variable {cs rest : List Char} {scheme : Scheme}

/-- A scheme is read up to the colon and two slashes. -/
theorem parse_eq_some : parse cs = .ok (some (scheme, rest)) ↔
    ∃ name, cs = name ++ ':' :: '/' :: '/' :: rest ∧ (∀ c ∈ name, isName c = true) ∧
      ¬ (name = [] ∧ rest = []) ∧ name.length ≤ maxLength ∧
      scheme = ofName (String.ofList name) := by
  simp only [parse]
  constructor
  · intro h
    split at h
    · rename_i rest' hdrop
      split at h
      · exact nomatch h
      · rename_i hempty
        split at h
        · exact nomatch h
        · rename_i hlength
          obtain ⟨rfl, rfl⟩ := Prod.mk.inj (Option.some.inj (Except.ok.inj h))
          refine ⟨cs.takeWhile isName, ?_, fun c hc => ?_, hempty, Nat.le_of_not_lt hlength, rfl⟩
          · rw [← hdrop, List.takeWhile_append_dropWhile]
          · exact List.mem_takeWhile_imp hc
    · exact nomatch h
  · rintro ⟨name, rfl, hname, hempty, hlength, rfl⟩
    have hcolon : isName ':' = false := by decide
    have htake : (name ++ ':' :: '/' :: '/' :: rest).takeWhile isName = name := by
      simp [List.takeWhile_append_of_pos hname, hcolon]
    have hdrop : (name ++ ':' :: '/' :: '/' :: rest).dropWhile isName =
        ':' :: '/' :: '/' :: rest := by
      simp [List.dropWhile_append_of_pos hname, hcolon]
    simp only [htake, hdrop, if_neg hempty, if_neg (Nat.not_lt.mpr hlength)]

/-- The known schemes are read in any case, and all others are kept as they are. -/
theorem ofName_text (name : String) : ofName (ofName name).text = ofName name := by
  have hhttp : Text.lower "http" = "http" := by decide
  have hhttps : Text.lower "https" = "https" := by decide
  simp only [ofName]
  split
  · simp [text, hhttp]
  · split
    · simp [text, hhttps]
    · simp [text, *]

/-- The two known schemes have at most five letters. -/
theorem utf8ByteSize_ofName_le (name : String) :
    (ofName name).text.utf8ByteSize ≤ name.utf8ByteSize + 5 := by
  have hhttp : "http".utf8ByteSize = 4 := by decide
  have hhttps : "https".utf8ByteSize = 5 := by decide
  simp only [ofName]
  split
  · simp only [text, hhttp]
    omega
  · split
    · simp only [text, hhttps]
      omega
    · exact Nat.le_add_right _ _

/-- The printed form of a scheme that was read can be read. -/
theorem text_ofName {name : List Char} (hname : ∀ c ∈ name, isName c = true)
    (hlength : name.length ≤ maxLength) :
    (∀ c ∈ (ofName (String.ofList name)).text.toList, isName c = true) ∧
      (ofName (String.ofList name)).text.toList.length ≤ maxLength := by
  simp only [ofName]
  split
  · exact ⟨List.all_eq_true.mp (by decide), by decide⟩
  · split
    · exact ⟨List.all_eq_true.mp (by decide), by decide⟩
    · simpa [text] using ⟨hname, hlength⟩

end Scheme

/-! ## Authorities -/

namespace Authority

variable {cs text rest : List Char}

/-- An authority is read up to a character that ends it. -/
theorem parse_eq_ok : parse cs = .ok (text, rest) ↔
    cs ≠ [] ∧ (∃ scan, text.foldlM Scan.step ⟨0, false, false, false, false⟩ = .ok scan ∧
      scan.complete = true) ∧
    text = cs.takeWhile (!endsAuthority ·) ∧ rest = cs.dropWhile (!endsAuthority ·) := by
  simp only [parse]
  constructor
  · intro h
    obtain ⟨hcs, h⟩ := guard_eq_ok.mp h
    obtain ⟨scan, hscan, h⟩ := bind_eq_ok.mp h
    split at h
    · rename_i hcomplete
      obtain ⟨rfl, rfl⟩ := Prod.mk.inj (Except.ok.inj h)
      exact ⟨hcs, ⟨scan, hscan, hcomplete⟩, rfl, rfl⟩
    · exact nomatch h
  · rintro ⟨hcs, ⟨scan, hscan, hcomplete⟩, rfl, rfl⟩
    refine guard_eq_ok.mpr ⟨hcs, bind_eq_ok.mpr ⟨scan, hscan, ?_⟩⟩
    rw [if_pos hcomplete]
    rfl

/-- What is read as an authority is read again, whatever ends it. -/
theorem parse_again {text rest' : List Char} {c : Char} (h : parse cs = .ok (text, rest))
    (hends : endsAuthority c = true) : parse (text ++ c :: rest') = .ok (text, c :: rest') := by
  obtain ⟨-, hscan, htext, -⟩ := parse_eq_ok.mp h
  have hall : ∀ c ∈ text, (!endsAuthority c) = true := by
    rw [htext]
    exact fun c hc => List.mem_takeWhile_imp (p := (!endsAuthority ·)) hc
  refine parse_eq_ok.mpr ⟨by simp, hscan, ?_, ?_⟩
  · simp [List.takeWhile_append_of_pos hall, hends]
  · simp [List.dropWhile_append_of_pos hall, hends]

end Authority

/-! ## Identifiers -/

namespace Uri

variable {s : String} {scheme : Scheme} {authority : Authority} {target : Target}

/-- An absolute identifier is a scheme, an authority that is not empty, and a target. -/
theorem ofText_eq_absolute : ofText s = .ok (.absolute scheme authority target) ↔
    ¬ maxLength < s.utf8ByteSize ∧ ∃ rest after,
      Scheme.parse s.toList = .ok (some (scheme, rest)) ∧
      Authority.parse rest = .ok (authority.text.toList, after) ∧ authority.text.toList ≠ [] ∧
      Target.parse after = .ok target := by
  simp only [ofText]
  constructor
  · intro h
    obtain ⟨hlength, h₁⟩ := guard_eq_ok.mp h
    refine ⟨hlength, ?_⟩
    split at h₁
    · exact nomatch h₁
    · obtain ⟨target', -, h₂⟩ := bind_eq_ok.mp h₁
      exact nomatch Except.ok.inj h₂
    · exact nomatch Except.ok.inj h₁
    · obtain ⟨authority', -, h₂⟩ := bind_eq_ok.mp h₁
      exact nomatch Except.ok.inj h₂
    · obtain ⟨scheme?, hscheme, h₂⟩ := bind_eq_ok.mp h₁
      rcases scheme? with _ | ⟨scheme', rest⟩
      · obtain ⟨⟨text, rest⟩, -, h₃⟩ := bind_eq_ok.mp h₂
        dsimp only at h₃
        split at h₃
        · exact nomatch Except.ok.inj h₃
        · exact nomatch h₃
      · obtain ⟨⟨text, after⟩, hauthority, h₃⟩ := bind_eq_ok.mp h₂
        obtain ⟨hempty, h₄⟩ := guard_eq_ok.mp h₃
        obtain ⟨target', htarget, h₅⟩ := bind_eq_ok.mp h₄
        obtain ⟨rfl, rfl, rfl⟩ := Uri.absolute.inj (Except.ok.inj h₅)
        exact ⟨rest, after, hscheme, by simpa using hauthority, by simpa using hempty, htarget⟩
  · rintro ⟨hlength, rest, after, hscheme, hauthority, hempty, htarget⟩
    refine guard_eq_ok.mpr ⟨hlength, ?_⟩
    obtain ⟨name, hname, hall, -⟩ := Scheme.parse_eq_some.mp hscheme
    have hlong : 3 ≤ s.toList.length := by
      rw [hname]
      simp
      omega
    split
    · rename_i hlist
      simp [hlist] at hlong
    · rename_i hlist
      -- a slash may not stand in the name of a scheme
      rw [hlist] at hname
      cases name with
      | nil => simp at hname
      | cons c name =>
        obtain ⟨rfl, -⟩ := List.cons.inj hname
        exact absurd (hall '/' List.mem_cons_self) (by decide)
    · rename_i hlist
      simp [hlist] at hlong
    · rename_i hlist
      simp [hlist] at hlong
    · refine bind_eq_ok.mpr ⟨_, hscheme, bind_eq_ok.mpr ⟨_, hauthority, ?_⟩⟩
      refine guard_eq_ok.mpr ⟨hempty, bind_eq_ok.mpr ⟨target, htarget, ?_⟩⟩
      simp [pure, Except.pure]

/-- An absolute identifier consists of the name of its scheme, its authority, and more. -/
theorem exists_parts (h : ofText s = .ok (.absolute scheme authority target)) :
    ∃ name after, s = name ++ "://" ++ authority.text ++ after ∧ scheme = Scheme.ofName name := by
  obtain ⟨-, rest, after, hscheme, hauthority, -, -⟩ := ofText_eq_absolute.mp h
  obtain ⟨name, hlist, -, -, -, rfl⟩ := Scheme.parse_eq_some.mp hscheme
  obtain ⟨-, -, htext, hafter⟩ := Authority.parse_eq_ok.mp hauthority
  have hrest : rest = authority.text.toList ++ after := by
    rw [htext, hafter, List.takeWhile_append_dropWhile]
  refine ⟨String.ofList name, String.ofList after, ?_, rfl⟩
  apply String.toList_inj.mp
  rw [hlist, hrest]
  simp

/-- A path on a host that was read takes hardly more bytes than what it was read from: a known
scheme may have been written in fewer. -/
theorem utf8ByteSize_onHost_le {path : String} (hpath : path ≠ "")
    (h : ofText s = .ok (.absolute scheme authority target)) :
    (onHost scheme authority path).text.utf8ByteSize ≤
      s.utf8ByteSize + 5 + path.utf8ByteSize := by
  obtain ⟨name, after, rfl, rfl⟩ := exists_parts h
  have hname := Scheme.utf8ByteSize_ofName_le name
  rw [text_onHost _ _ hpath]
  simp only [String.utf8ByteSize_append]
  omega

/-- The scheme in front of a host that was read is read again. -/
theorem parse_onHost {path : String} (h : ofText s = .ok (.absolute scheme authority target))
    (hpath : path ≠ "") : Scheme.parse (onHost scheme authority path).text.toList =
      .ok (some (scheme, authority.text.toList ++ path.toList)) := by
  obtain ⟨-, rest, after, hscheme, -, hempty, -⟩ := ofText_eq_absolute.mp h
  obtain ⟨name, -, hname, -, hshort, rfl⟩ := Scheme.parse_eq_some.mp hscheme
  obtain ⟨hname', hshort'⟩ := Scheme.text_ofName hname hshort
  refine Scheme.parse_eq_some.mpr ⟨_, ?_, hname', ?_, hshort', ?_⟩
  · rw [text_onHost _ _ hpath]
    simp
  · exact fun hnil => hempty (List.append_eq_nil_iff.mp hnil.2).1
  · rw [String.ofList_toList, Scheme.ofName_text]

/-- A path on a host that was read is read again in the same way. -/
theorem ofText_onHost {path : String} (h : ofText s = .ok (.absolute scheme authority target))
    (hpath : IsPath path) (hlength : (onHost scheme authority path).text.utf8ByteSize ≤ maxLength) :
    ofText (onHost scheme authority path).text = .ok (onHost scheme authority path) := by
  obtain ⟨-, rest, after, -, hauthority, hempty, -⟩ := ofText_eq_absolute.mp h
  obtain ⟨cs, hcs⟩ := hpath.exists_cons
  have hscheme := parse_onHost h hpath.ne_empty
  rw [hcs] at hscheme
  refine ofText_eq_absolute.mpr ⟨Nat.not_lt.mpr hlength, authority.text.toList ++ '/' :: cs,
    '/' :: cs, hscheme, ?_, hempty, ?_⟩
  · exact Authority.parse_again hauthority (by decide)
  · rw [← hcs]
    exact hpath.parse

end Uri

/-- The root of a host is its own root when it is printed and read again, unless it has become too
long by that. -/
theorem destination_text {endpoint : String} {root root' : Uri}
    (h : destination endpoint = .ok root) (h' : destination root.text = .ok root') :
    root' = root := by
  have hroot : IsPath "/" := by decide
  obtain ⟨scheme, authority, target, hread, rfl⟩ := destination_eq_ok.mp h
  obtain ⟨scheme', authority', target', hread', rfl⟩ := destination_eq_ok.mp h'
  have hlength := Nat.le_of_not_lt (Uri.ofText_eq_absolute.mp hread').1
  have hagain := Uri.ofText_onHost hread hroot hlength
  obtain ⟨rfl, rfl, -⟩ := Uri.absolute.inj (Except.ok.inj (hread'.symm.trans hagain))
  rfl

/-- It does not become too long by that if there was some room left. -/
theorem destination_of_text {endpoint : String} {root : Uri} (h : destination endpoint = .ok root)
    (hsize : endpoint.utf8ByteSize < 60000) : destination root.text = .ok root := by
  have hroot : IsPath "/" := by decide
  have hslash : "/".utf8ByteSize = 1 := by decide
  obtain ⟨scheme, authority, target, hread, rfl⟩ := destination_eq_ok.mp h
  have hprinted := Uri.utf8ByteSize_onHost_le hroot.ne_empty hread
  have hfits : (Uri.onHost scheme authority "/").text.utf8ByteSize ≤ Uri.maxLength := by
    rw [Uri.maxLength]
    omega
  exact destination_eq_ok.mpr ⟨scheme, authority, _, Uri.ofText_onHost hread hroot hfits, rfl⟩

/-- Roots of hosts that are printed alike are the same. -/
theorem root_eq_of_text {endpoint endpoint' : String} {root root' : Uri}
    (h : destination endpoint = .ok root) (h' : destination endpoint' = .ok root')
    (htext : root.text = root'.text) : root = root' := by
  have hslash : "/" ≠ "" := by decide
  obtain ⟨scheme, ⟨authority⟩, target, hread, rfl⟩ := destination_eq_ok.mp h
  obtain ⟨scheme', ⟨authority'⟩, target', hread', rfl⟩ := destination_eq_ok.mp h'
  have hparse := Uri.parse_onHost hread hslash
  rw [htext, Uri.parse_onHost hread' hslash] at hparse
  obtain ⟨rfl, hrest⟩ := Prod.mk.inj (Option.some.inj (Except.ok.inj hparse))
  obtain rfl := String.toList_inj.mp (List.append_cancel_right hrest)
  rfl

end SealedTunnel
