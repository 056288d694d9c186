/-!
# Byte strings

The currency of the library: keys, messages, frames and certificates are all
lists of bytes.

* `Bytes` — a byte string, first byte first.
* `Bytes.ofNat` / `Bytes.toNat` — big-endian numbers of a fixed width.
* `Bytes.hex` — lower-case hexadecimal text.
* `Bytes.ofString` / `Bytes.toString?` — UTF-8.
* `Rest`, `Remaining` — what a reader leaves of its input, with the proof that it is shorter.
-/

namespace SealedTunnel

-- Powers, and the zero that sums start from, are the same whichever libraries are at hand.
attribute [instance (10000), default_instance (10000)] instPowNat
attribute [instance (10000)] Zero.ofOfNat0

/-- A byte string, first byte first. -/
abbrev Bytes : Type := List UInt8

namespace Bytes

/-! ## Big-endian numbers -/

/-- The number whose base-256 digits are the bytes, most significant first. -/
def toNat (b : Bytes) : Nat :=
  b.foldl (fun n x => n * 256 + x.toNat) 0

/-- The last `width` base-256 digits of `n`, most significant first. -/
def ofNat : (width n : Nat) → Bytes
  | 0, _ => []
  | width + 1, n => ofNat width (n / 256) ++ [UInt8.ofNat n]

@[simp] theorem length_ofNat (width n : Nat) : (ofNat width n).length = width := by
  induction width generalizing n with
  | zero => rfl
  | succ width ih => simp [ofNat, ih]

theorem toNat_append_singleton (b : Bytes) (x : UInt8) :
    toNat (b ++ [x]) = toNat b * 256 + x.toNat := by
  simp [toNat]

/-- A number that fits its width is read back. -/
theorem toNat_ofNat (width n : Nat) (h : n < 256 ^ width) : toNat (ofNat width n) = n := by
  induction width generalizing n with
  | zero => simp at h; simp [ofNat, toNat, h]
  | succ width ih =>
    have hdiv : n / 256 < 256 ^ width := by
      rw [Nat.pow_succ] at h
      omega
    rw [ofNat, toNat_append_singleton, ih _ hdiv]
    simp
    omega

/-- The bytes of an unsigned 64-bit number, most significant first. -/
def ofUInt64 (n : UInt64) : Bytes := ofNat 8 n.toNat

/-- The unsigned 64-bit number written big-endian. -/
def toUInt64 (b : Bytes) : UInt64 := UInt64.ofNat (toNat b)

@[simp] theorem length_ofUInt64 (n : UInt64) : (ofUInt64 n).length = 8 := length_ofNat ..

@[simp] theorem toUInt64_ofUInt64 (n : UInt64) : toUInt64 (ofUInt64 n) = n := by
  rw [toUInt64, ofUInt64, toNat_ofNat _ _ (by have := n.toNat_lt; omega), UInt64.ofNat_toNat]

/-! ## Hexadecimal text -/

/-- The lower-case hexadecimal digit of a number below sixteen. -/
def hexDigit (n : Nat) : Char :=
  if n < 10 then Char.ofNat (48 + n) else Char.ofNat (87 + n)

/-- Two lower-case hexadecimal digits for each byte. -/
def hexChars : Bytes → List Char
  | [] => []
  | x :: rest => hexDigit (x.toNat / 16) :: hexDigit (x.toNat % 16) :: hexChars rest

/-- The lower-case hexadecimal text of a byte string. -/
def hex (b : Bytes) : String := String.ofList (hexChars b)

/-! ## Text -/

/-- The UTF-8 form of a text. -/
def ofString (s : String) : Bytes := s.toUTF8.data.toList

/-- The text whose UTF-8 form this is, if there is one. -/
def toString? (b : Bytes) : Option String := String.fromUTF8? ⟨b.toArray⟩

@[simp] theorem toString?_ofString (s : String) : toString? (ofString s) = some s := by
  simp only [toString?, ofString, Array.toArray_toList]
  exact dif_pos s.isValidUTF8

/-! ## Combining strings of one length -/

/-- Bytewise exclusive or, as long as the shorter operand. -/
def xor (a b : Bytes) : Bytes := List.zipWith (· ^^^ ·) a b

end Bytes

/-! ## Progress of readers -/

/-- What is left of an input after something was read from it. -/
abbrev Rest (input : Bytes) : Type := { rest : Bytes // rest.length < input.length }

/-- What is left of an input from which possibly nothing was read. -/
abbrev Remaining (input : Bytes) : Type := { rest : Bytes // rest.length ≤ input.length }

theorem Rest.tail (b : UInt8) (rest : Bytes) : rest.length < (b :: rest).length :=
  Nat.lt_succ_self _

theorem Rest.drop (b : UInt8) (rest : Bytes) (n : Nat) :
    (rest.drop n).length < (b :: rest).length := by
  simp only [List.length_drop, List.length_cons]
  omega

theorem Rest.behind (b : UInt8) {input middle rest : Bytes} (h : middle.length ≤ input.length)
    (h' : rest.length < middle.length) : rest.length < (b :: input).length :=
  Nat.lt_succ_of_lt (Nat.lt_of_lt_of_le h' h)

theorem Rest.trans {input middle rest : Bytes} (h' : rest.length < middle.length)
    (h : middle.length < input.length) : rest.length < input.length := Nat.lt_trans h' h

theorem Remaining.refl (input : Bytes) : input.length ≤ input.length := Nat.le_refl _

theorem Remaining.tail (b : UInt8) (rest : Bytes) : rest.length ≤ (b :: rest).length :=
  Nat.le_succ _

end SealedTunnel
