import Mathlib
import SealedTunnel.Text.Blank
import SealedTunnel.Text.Decimal

/-!
# Trimmed, lower-case and decimal texts

* `Text.IsTrimmed` — no blanks at both ends: what `Text.trim` returns, and what it leaves alone.
* `Text.lower_lower` — what is in lower case is left alone.
* `Text.occursIn_iff`, `Text.occursIn_lower_trim` — words that occur in a text.
* `Text.IsDecimal`, `Text.readNatural_eq_ok` — digits that show a number, and how they are read.
* `Text.readNatural_toString` — the decimal form of a number is read back.
-/

namespace SealedTunnel

namespace Text

/-! ## Blanks at the ends -/

/-- Neither end of a text is blank. -/
structure IsTrimmed (s : String) : Prop where
  /-- the first character -/
  head : ∀ c ∈ s.toList.head?, isBlank c = false
  /-- the last one -/
  last : ∀ c ∈ s.toList.getLast?, isBlank c = false

/-- A trimmed text is left alone, -/
theorem IsTrimmed.trim_eq {s : String} (h : IsTrimmed s) : trim s = s := by
  have hdrop : s.toList.dropWhile isBlank = s.toList := by
    refine List.dropWhile_eq_self_iff.mpr fun hlt => ?_
    rw [h.head _ (List.head?_eq_getElem? .. ▸ List.getElem?_eq_getElem hlt)]
    exact Bool.false_ne_true
  have hrdrop : s.toList.rdropWhile isBlank = s.toList := by
    refine List.rdropWhile_eq_self_iff.mpr fun hne => ?_
    rw [h.last _ (List.getLast?_eq_some_getLast hne)]
    exact Bool.false_ne_true
  have hchars : trimChars s.toList = s.toList := by
    rw [trimChars, hdrop]
    exact hrdrop
  rw [trim, hchars, String.ofList_toList]

/-- and all that comes out is trimmed. -/
theorem trim_isTrimmed (s : String) : IsTrimmed (trim s) := by
  have hchars : (trim s).toList = (s.toList.dropWhile isBlank).rdropWhile isBlank := by
    rw [trim, String.toList_ofList, trimChars, List.rdropWhile]
  constructor
  · intro c hc
    -- what is left after both ends begins as what is left after the first one
    have hprefix := List.rdropWhile_prefix isBlank (l := s.toList.dropWhile isBlank)
    rw [hchars] at hc
    have hhead := List.head?_dropWhile_not isBlank s.toList
    rw [List.singleton_prefix_iff_head?_eq_some.mp
      ((List.singleton_prefix_iff_head?_eq_some.mpr hc).trans hprefix)] at hhead
    exact hhead
  · intro c hc
    have hlast := List.head?_dropWhile_not isBlank (s.toList.dropWhile isBlank).reverse
    rw [hchars, List.rdropWhile, List.getLast?_reverse] at hc
    rw [hc] at hlast
    exact hlast

theorem IsTrimmed.of_forall {s : String} (h : ∀ c ∈ s.toList, isBlank c = false) :
    IsTrimmed s where
  head := fun c hc => h c (List.mem_of_mem_head? hc)
  last := fun c hc => h c (List.mem_of_getLast? hc)

theorem mem_of_mem_trim {s : String} {c : Char} (h : c ∈ (trim s).toList) : c ∈ s.toList := by
  rw [trim, String.toList_ofList, trimChars, List.mem_reverse] at h
  have hmem := (List.dropWhile_sublist _).mem h
  rw [List.mem_reverse] at hmem
  exact (List.dropWhile_sublist _).mem hmem

/-! ## Lower case -/

@[simp] theorem lower_lower (s : String) : lower (lower s) = lower s := by
  have hchar : Char.toLower ∘ Char.toLower = Char.toLower :=
    funext Char.toLower_toLower_eq_toLower
  rw [lower, lower, String.toList_ofList, List.map_map, hchar]

/-! ## Words in texts -/

theorem occursIn_iff {word cs : List Char} : occursIn word cs = true ↔ word <:+: cs := by
  induction cs with
  | nil => rw [occursIn, List.isEmpty_iff, List.infix_nil]
  | cons c cs ih =>
    rw [occursIn, Bool.or_eq_true, ih, List.isPrefixOf_iff_prefix, List.infix_cons_iff]

/-- What is trimmed is a part of the text, -/
theorem isInfix_trim (s : String) : (trim s).toList <:+: s.toList := by
  rw [trim, String.toList_ofList]
  exact (List.rdropWhile_prefix isBlank _).isInfix.trans (List.dropWhile_suffix isBlank).isInfix

/-- so no word occurs there that does not occur in the text. -/
theorem occursIn_lower_trim {word : List Char} {s : String}
    (h : occursIn word (lower (trim s)).toList = true) : occursIn word (lower s).toList = true := by
  simp only [occursIn_iff, lower, String.toList_ofList] at h ⊢
  exact h.trans ((isInfix_trim s).map Char.toLower)

/-! ## Decimal numbers -/

theorem mem_toString {n : Nat} {c : Char} (h : c ∈ (toString n).toList) : c.isDigit = true := by
  rw [Nat.toString_eq_ofList_toDigits, String.toList_ofList] at h
  exact Nat.isDigit_of_mem_toDigits (by decide) (by decide) h

/-- A digit is not blank. -/
theorem isBlank_of_isDigit {c : Char} (h : c.isDigit = true) : isBlank c = false := by
  simp only [Char.isDigit, Bool.and_eq_true, decide_eq_true_eq, UInt32.le_iff_toNat_le,
    ge_iff_le] at h
  have hdigits : ∀ n < 58, 48 ≤ n → isBlank (Char.ofNat n) = false := by decide
  rw [← c.ofNat_toNat]
  exact hdigits c.toNat (Nat.lt_succ_of_le h.2) h.1

/-- The decimal form of a number is trimmed. -/
theorem toString_isTrimmed (n : Nat) : IsTrimmed (toString n) :=
  .of_forall fun _ hc => isBlank_of_isDigit (mem_toString hc)

/-- Digits that show a number. -/
structure IsDecimal (cs : List Char) (n : Nat) : Prop where
  /-- there is one at least -/
  ne_nil : cs ≠ []
  /-- and nothing else -/
  digits : ∀ c ∈ cs, c.isDigit = true
  /-- this is what they show -/
  value : Nat.ofDigitChars 10 cs 0 = n

/-- What follows a plus sign, if there is one. -/
def unsigned : List Char → List Char
  | '+' :: cs => cs
  | cs => cs

theorem mem_unsigned {cs : List Char} {c : Char} (h : c ∈ cs) (hc : c ≠ '+') : c ∈ unsigned cs := by
  rw [unsigned.eq_def]
  split
  · exact (List.mem_cons.mp h).resolve_left hc
  · exact h

/-- More digits only make a number larger. -/
theorem le_ofDigitChars (cs : List Char) (n : Nat) : n ≤ Nat.ofDigitChars 10 cs n := by
  rw [Nat.ofDigitChars_eq_ofDigitChars_zero]
  exact Nat.le_add_right_of_le (Nat.le_mul_of_pos_left _ (Nat.pow_pos (by decide)))

/-- Digits continue a number as long as it stays below the bound. -/
theorem readDigits_eq_ok {bound n m : Nat} {cs : List Char} (hn : n < bound) :
    readDigits bound n cs = .ok m ↔
      (∀ c ∈ cs, c.isDigit = true) ∧ Nat.ofDigitChars 10 cs n = m ∧ m < bound := by
  induction cs generalizing n with
  | nil =>
    rw [readDigits, Except.ok.injEq]
    constructor
    · rintro rfl
      exact ⟨by simp, rfl, hn⟩
    · exact fun h => h.2.1
  | cons c cs ih =>
    rw [readDigits, List.forall_mem_cons, Nat.ofDigitChars_cons, Nat.mul_comm 10]
    by_cases hc : c.isDigit = true
    case neg => simp [hc]
    rw [if_pos hc]
    dsimp only
    by_cases hnext : n * 10 + (c.toNat - 48) < bound
    · rw [if_pos hnext, ih hnext]
      exact ⟨fun h => ⟨⟨hc, h.1⟩, h.2⟩, fun h => ⟨h.1.2, h.2⟩⟩
    · -- what exceeds the bound stays above it
      rw [if_neg hnext]
      constructor
      · exact nofun
      · rintro ⟨-, rfl, hlt⟩
        exact absurd ((le_ofDigitChars cs _).trans_lt hlt) hnext

/-- A text is read as a number if it consists of digits, with a plus sign in front or without. -/
theorem readNatural_eq_ok {bound n : Nat} {s : String} (hbound : 0 < bound) :
    readNatural bound s = .ok n ↔ IsDecimal (unsigned s.toList) n ∧ n < bound := by
  have hread : readNatural bound s = .ok n ↔
      unsigned s.toList ≠ [] ∧ readDigits bound 0 (unsigned s.toList) = .ok n := by
    rw [readNatural]
    generalize s.toList = cs
    split
    case h_1 => simp [unsigned]
    case h_2 => simp [unsigned]
    case h_3 digits hne => simp [unsigned, show digits ≠ [] from hne]
    case h_4 hne _ hplus =>
      rw [unsigned.eq_2 cs hplus]
      exact ⟨fun h => ⟨hne, h⟩, fun h => h.2⟩
  rw [hread, readDigits_eq_ok hbound]
  constructor
  · rintro ⟨hne, hdigits, hvalue, hlt⟩
    exact ⟨⟨hne, hdigits, hvalue⟩, hlt⟩
  · rintro ⟨h, hlt⟩
    exact ⟨h.ne_nil, h.digits, h.value, hlt⟩

/-- The decimal form of a number below the bound is read back. -/
theorem readNatural_toString {bound n : Nat} (h : n < bound) :
    readNatural bound (toString n) = .ok n := by
  have hchars : (toString n).toList = Nat.toDigits 10 n := by
    rw [Nat.toString_eq_ofList_toDigits, String.toList_ofList]
  have hdigits : ∀ c ∈ Nat.toDigits 10 n, c.isDigit = true := fun c hc =>
    mem_toString (hchars ▸ hc)
  have hunsigned : unsigned (Nat.toDigits 10 n) = Nat.toDigits 10 n :=
    unsigned.eq_2 _ fun cs hcs => nomatch hdigits '+' (hcs ▸ List.mem_cons_self)
  rw [readNatural_eq_ok (Nat.zero_lt_of_lt h), hchars, hunsigned]
  exact ⟨⟨Nat.toDigits_ne_nil, hdigits, Nat.ofDigitChars_ten_toDigits⟩, h⟩

end Text

end SealedTunnel
