import SealedTunnel.Bytes

/-!
# UTF-8

* `Bytes.ofString_injective`, `Bytes.ofString_of_toString?` — texts and their UTF-8 forms.
* `Bytes.ofString_eq` — the UTF-8 form, character by character.
* `Bytes.mem_ofString`, `Bytes.forall_mem_ofString` — a byte below 128 stands there for its
  character, and only for it.
-/

namespace SealedTunnel

namespace Bytes

/-- Different texts have different UTF-8 forms. -/
theorem ofString_injective {s t : String} (h : ofString s = ofString t) : s = t := by
  have hs := toString?_ofString s
  rw [h, toString?_ofString] at hs
  exact (Option.some.inj hs).symm

/-- A byte string that is UTF-8 is the UTF-8 form of its text. -/
theorem ofString_of_toString? {b : Bytes} {s : String} (h : toString? b = some s) :
    ofString s = b := by
  simp only [toString?, String.fromUTF8?] at h
  split at h
  · obtain rfl := Option.some.inj h
    rfl
  · cases h

/-- The UTF-8 form is made of those of the characters. -/
theorem ofString_eq (s : String) : ofString s = s.toList.flatMap String.utf8EncodeChar := by
  have hencode := congrArg (·.data.toList) (String.utf8Encode_toList (b := s))
  rw [ofString, String.toUTF8, ← hencode]
  simp [List.utf8Encode]

@[simp] theorem ofString_append (s t : String) : ofString (s ++ t) = ofString s ++ ofString t := by
  simp [ofString_eq]

/-- The first byte is one of the first character, -/
theorem exists_head {s : String} {b : UInt8} (h : (ofString s).head? = some b) :
    ∃ c, s.toList.head? = some c ∧ b ∈ String.utf8EncodeChar c := by
  rw [ofString_eq] at h
  cases hs : s.toList with
  | nil => exact nomatch hs ▸ h
  | cons c cs =>
    have hfirst := List.head?_eq_some_head (String.utf8EncodeChar_ne_nil (c := c))
    rw [hs, List.flatMap_cons, List.head?_append, hfirst, Option.some_or, ← hfirst] at h
    exact ⟨c, rfl, List.mem_of_mem_head? h⟩

/-- and the last one is one of the last. -/
theorem exists_last {s : String} {b : UInt8} (h : (ofString s).getLast? = some b) :
    ∃ c, s.toList.getLast? = some c ∧ b ∈ String.utf8EncodeChar c := by
  rw [ofString_eq] at h
  cases hs : s.toList.getLast? with
  | none =>
    rw [List.getLast?_eq_none_iff] at hs
    exact nomatch hs ▸ h
  | some c =>
    obtain ⟨cs, hcs⟩ := List.getLast?_eq_some_iff.mp hs
    have hlast := List.getLast?_eq_some_getLast (String.utf8EncodeChar_ne_nil (c := c))
    rw [hcs, List.flatMap_append, List.flatMap_singleton, List.getLast?_append, hlast,
      Option.some_or, ← hlast] at h
    exact ⟨c, rfl, List.mem_of_getLast? h⟩

/-- A character below 128 is one byte, -/
theorem utf8EncodeChar_of_lt {c : Char} (h : c.toNat < 128) :
    String.utf8EncodeChar c = [UInt8.ofNat c.toNat] :=
  if_pos (Nat.le_of_lt_succ h)

/-- and all bytes of another one are at least 128. -/
theorem le_of_mem_utf8EncodeChar {c : Char} (h : ¬ c.toNat < 128) {b : UInt8}
    (hb : b ∈ String.utf8EncodeChar c) : ¬ b < 128 := by
  have hlarge : ¬ c.val.toNat ≤ 127 := fun hle => h (Nat.lt_succ_of_le hle)
  simp only [String.utf8EncodeChar, if_neg hlarge] at hb
  rw [UInt8.lt_iff_toNat_lt]
  split at hb
  · simp only [List.mem_cons, List.not_mem_nil, or_false] at hb
    rcases hb with rfl | rfl <;> simp <;> omega
  split at hb
  · simp only [List.mem_cons, List.not_mem_nil, or_false] at hb
    rcases hb with rfl | rfl | rfl <;> simp <;> omega
  · simp only [List.mem_cons, List.not_mem_nil, or_false] at hb
    rcases hb with rfl | rfl | rfl | rfl <;> simp <;> omega

/-- So a byte below 128 is in the UTF-8 form of a character if it stands for it. -/
theorem mem_utf8EncodeChar {c : Char} {b : UInt8} (hb : b < 128) :
    b ∈ String.utf8EncodeChar c ↔ c.toNat = b.toNat := by
  have hlt : b.toNat < 128 := hb
  by_cases hc : c.toNat < 128
  · rw [utf8EncodeChar_of_lt hc, List.mem_singleton, ← UInt8.toNat_inj, UInt8.toNat_ofNat',
      Nat.mod_eq_of_lt (by omega)]
    exact eq_comm
  · refine ⟨fun hmem => absurd hb (le_of_mem_utf8EncodeChar hc hmem), fun heq => ?_⟩
    exact absurd (heq ▸ hlt) hc

/-- It is in that of a text if it stands for one of its characters. -/
theorem mem_ofString {s : String} {b : UInt8} (hb : b < 128) :
    b ∈ ofString s ↔ ∃ c ∈ s.toList, c.toNat = b.toNat := by
  simp only [ofString_eq, List.mem_flatMap, mem_utf8EncodeChar hb]

/-- What holds of all bytes from 128 on holds of a text if it holds of its other characters. -/
theorem forall_mem_ofString {p : UInt8 → Prop} (hp : ∀ b, ¬ b < 128 → p b) {s : String} :
    (∀ b ∈ ofString s, p b) ↔ ∀ c ∈ s.toList, c.toNat < 128 → p (UInt8.ofNat c.toNat) := by
  constructor
  · intro h c hc hlt
    have hnat : (UInt8.ofNat c.toNat).toNat = c.toNat := by
      rw [UInt8.toNat_ofNat', Nat.mod_eq_of_lt (by omega)]
    have hbyte : UInt8.ofNat c.toNat < 128 := by
      rw [UInt8.lt_iff_toNat_lt, hnat]
      exact hlt
    exact h _ ((mem_ofString hbyte).mpr ⟨c, hc, hnat.symm⟩)
  · intro h b hmem
    by_cases hb : b < 128
    · obtain ⟨c, hc, heq⟩ := (mem_ofString hb).mp hmem
      have hlt : c.toNat < 128 := heq ▸ hb
      have hbyte : UInt8.ofNat c.toNat = b := by rw [heq, UInt8.ofNat_toNat]
      exact hbyte ▸ h c hc hlt
    · exact hp b hb

end Bytes

end SealedTunnel
