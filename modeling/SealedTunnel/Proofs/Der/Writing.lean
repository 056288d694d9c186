import SealedTunnel.Proofs.Der.Elements

/-!
# Elements that are written

An element has one shortest form, which is the one that is written. It is read back, whatever
follows it.

* `lengthBytes` — a length, in as few bytes as hold it.
* `Element.write`, `Element.inSequence`, `Element.wrap` — elements around a content, around others
  and around another one; `Element.explicit` — possibly around another one.
* `Element.Written`, `Element.Small` — what is written, and what is not too long to be read.
* `Element.Written.sound`, `Element.list_inSequence` — it is read back.
* `optionalPart_toList` — a part that is left out is told from one that is not by what follows.
-/

namespace SealedTunnel

open Cbor (Takes)

namespace Der

/-! ## Lengths -/

/-- The number of bytes that hold a number. -/
def width (n : Nat) : Nat := Nat.log2 n / 8 + 1

/-- A length, in as few bytes as hold it. -/
def lengthBytes (n : Nat) : Bytes :=
  if n < 128 then [UInt8.ofNat n] else UInt8.ofNat (128 + width n) :: Bytes.ofNat (width n) n

theorem lt_pow_width (n : Nat) : n < 256 ^ width n := calc
  n < 2 ^ (Nat.log2 n + 1) := Nat.lt_log2_self
  _ ≤ 2 ^ (8 * width n) := Nat.pow_le_pow_right (by decide) (by simp only [width]; omega)
  _ = 256 ^ width n := Nat.pow_mul 2 8 (width n)

theorem width_le {n : Nat} (h : n < 2 ^ 64) : width n ≤ 8 := by
  by_cases hzero : n = 0
  · rw [hzero]
    decide
  · have hlog := (Nat.log2_lt hzero).mpr h
    simp only [width]
    omega

theorem takes_lengthBytes {n : Nat} (h : n < 2 ^ 64) :
    Takes (fun input => outcome (Der.length input)) (lengthBytes n) n := by
  intro tail
  show outcome (Der.length (lengthBytes n ++ tail)) = some (n, tail)
  by_cases hshort : n < 128
  · have hn : (UInt8.ofNat n).toNat = n := by
      rw [UInt8.toNat_ofNat']
      omega
    rw [lengthBytes, if_pos hshort, List.singleton_append]
    simp only [Der.length, hn, if_pos hshort, outcome_some]
  · have hwidth := width_le h
    have hfirst : (UInt8.ofNat (128 + width n)).toNat = 128 + width n := by
      rw [UInt8.toNat_ofNat']
      omega
    have hlong : ¬ 128 + width n < 128 := by omega
    have htake : (Bytes.ofNat (width n) n ++ tail).take (width n) = Bytes.ofNat (width n) n :=
      List.take_left' (Bytes.length_ofNat _ _)
    have hdrop : (Bytes.ofNat (width n) n ++ tail).drop (width n) = tail :=
      List.drop_left' (Bytes.length_ofNat _ _)
    have hread : ¬ (width n = 0 ∨ width n = 127 ∨
        (Bytes.ofNat (width n) n ++ tail).length < width n ∨ 2 ^ 64 ≤ n) := by
      rw [List.length_append, Bytes.length_ofNat]
      simp only [width] at hwidth ⊢
      omega
    rw [lengthBytes, if_neg hshort, List.cons_append]
    simp only [Der.length, hfirst, if_neg hlong, Nat.add_sub_cancel_left, htake, hdrop,
      Bytes.toNat_ofNat _ _ (lt_pow_width n), if_neg hread, outcome_some]

/-! ## Elements -/

namespace Element

variable {e : Element} {items : List Element} {content : Bytes}

/-- Elements one after the other. -/
def flat (items : List Element) : Bytes := (items.map raw).flatten

@[simp] theorem flat_cons (e : Element) (items : List Element) :
    flat (e :: items) = e.raw ++ flat items := rfl

theorem length_raw_le (h : e ∈ items) : e.raw.length ≤ (flat items).length :=
  (List.sublist_flatten_of_mem (List.mem_map_of_mem h)).length_le

/-- An element whose identifier is one byte. -/
def write (identifier : UInt8) (content : Bytes) : Element where
  tagClass := Class.ofByte identifier
  constructed := isConstructed identifier
  tag := identifier.toNat % 32
  content
  raw := identifier :: lengthBytes content.length ++ content

/-- An element that is made of others. -/
def inSequence (items : List Element) : Element := write 0x30 (flat items)

/-- An element in a tag of its own. -/
def wrap (tag : Nat) (e : Element) : Element := write (UInt8.ofNat (0xa0 + tag)) e.raw

/-- A part in a tag of its own, if it is there. -/
def explicit (tag : Nat) (part : Option Element) : List Element := (part.map (wrap tag)).toList

/-- An element is written in its shortest form. Tag numbers from 31 on would take more bytes. -/
def Written (e : Element) : Prop :=
  ∃ identifier content, identifier.toNat % 32 < 31 ∧ e = write identifier content

/-- No length in an element takes more than 64 bits. -/
def Small (e : Element) : Prop := e.raw.length < 2 ^ 64

theorem length_content_lt (identifier : UInt8) (content : Bytes) :
    content.length < (write identifier content).raw.length := by
  simp only [write, List.cons_append, List.length_cons, List.length_append]
  omega

theorem Small.of_mem (h : (inSequence items).Small) (hmem : e ∈ items) : e.Small :=
  Nat.lt_of_le_of_lt (length_raw_le hmem) (Nat.lt_trans (length_content_lt 0x30 (flat items)) h)

theorem Small.of_wrap {tag : Nat} (h : (wrap tag e).Small) : e.Small :=
  Nat.lt_trans (length_content_lt _ e.raw) h

theorem inSequence_written (items : List Element) : (inSequence items).Written :=
  ⟨0x30, flat items, by decide, rfl⟩

theorem wrap_written {tag : Nat} (htag : tag < 31) (e : Element) : (wrap tag e).Written := by
  refine ⟨_, e.raw, ?_, rfl⟩
  rw [UInt8.toNat_ofNat']
  omega

theorem wrap_head {tag : Nat} (htag : tag < 31) (e : Element) : (wrap tag e).tag = tag ∧
    (wrap tag e).tagClass = .context ∧ (wrap tag e).constructed = true := by
  have hidentifier : (UInt8.ofNat (0xa0 + tag)).toNat = 0xa0 + tag := by
    rw [UInt8.toNat_ofNat']
    omega
  have hclass : (0xa0 + tag) / 64 = 2 := by omega
  have hconstructed : (0xa0 + tag) / 32 % 2 = 1 := by omega
  simp only [wrap, write, Class.ofByte, isConstructed, hidentifier, hclass, hconstructed]
  exact ⟨by omega, trivial, rfl⟩

/-- What is written is read back, if it is not too long. -/
theorem Written.sound (h : e.Written) (hsmall : e.Small) : e.Sound := by
  obtain ⟨identifier, content, hlow, rfl⟩ := h
  refine ⟨identifier :: lengthBytes content.length, ?_, rfl⟩
  intro tail
  have hsize := Nat.lt_trans (length_content_lt identifier content) hsmall
  obtain ⟨_, hlength⟩ := outcome_eq_some.mp (takes_lengthBytes hsize tail)
  simp only [Head.view, List.cons_append, Head.read, tagNumber, if_pos hlow, hlength,
    Option.bind_eq_bind, Option.bind_some]
  rfl

theorem list_inSequence (hitems : ∀ e ∈ items, e.Written) (hsmall : (inSequence items).Small) :
    Element.list (inSequence items).content = some items :=
  list_eq_some.mpr ⟨fun e he => (hitems e he).sound (hsmall.of_mem he), rfl⟩

end Element

/-! ## Parts -/

section Parts

open Element (flat)

variable {e : Element} {items : List Element} {tag : Nat}

theorem optionalPart_cons (h : e.Sound) (htag : e.tag = tag) :
    optionalPart tag (flat (e :: items)) = some (some e, flat items) := by
  have hnil : flat (e :: items) ≠ [] := List.append_ne_nil_of_left_ne_nil h.raw_ne_nil _
  obtain ⟨body, hhead⟩ := head_read_append h (flat items)
  obtain ⟨_, hread⟩ := Element.read_append h (flat items)
  have htag' : ¬ e.head.tag ≠ tag := not_not_intro htag
  rw [optionalPart, if_neg hnil]
  simp only [Element.flat_cons, hhead, hread, Option.bind_eq_bind, Option.bind_some, if_neg htag']
  rfl

theorem optionalPart_other (h : ∀ e ∈ items.head?, e.Sound ∧ e.tag ≠ tag) :
    optionalPart tag (flat items) = some (none, flat items) := by
  rcases items with _ | ⟨e, items⟩
  · rfl
  · obtain ⟨hsound, htag⟩ := h e rfl
    have hnil : flat (e :: items) ≠ [] := List.append_ne_nil_of_left_ne_nil hsound.raw_ne_nil _
    obtain ⟨body, hhead⟩ := head_read_append hsound (flat items)
    have htag' : e.head.tag ≠ tag := htag
    rw [optionalPart, if_neg hnil]
    simp only [Element.flat_cons, hhead, Option.bind_eq_bind, Option.bind_some, if_pos htag']
    rfl

/-- A part is there or left out, and what follows it has another tag. -/
theorem optionalPart_toList {o : Option Element} (ho : ∀ e ∈ o, e.Sound ∧ e.tag = tag)
    (hitems : ∀ e ∈ items.head?, e.Sound ∧ e.tag ≠ tag) :
    optionalPart tag (flat (o.toList ++ items)) = some (o, flat items) := by
  rcases o with _ | e
  · exact optionalPart_other hitems
  · exact optionalPart_cons (ho e rfl).1 (ho e rfl).2

end Parts

end Der

end SealedTunnel
