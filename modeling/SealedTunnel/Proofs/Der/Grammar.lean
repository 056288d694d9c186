import SealedTunnel.Proofs.Der.Elements

/-!
# The form of elements

What an element looks like, said without a reader: an identifier, the rest of the number of its tag,
a length, and content of that length. Neither tag numbers nor lengths have to be in their shortest
form.

* `IsTag`, `IsLength` — the bytes between the identifier and the content.
* `IsElement` — the bytes of an element.
* `takes_iff` — a reader takes a byte string if it leaves nothing of it.
* `isElement_iff` — these are the byte strings that are read as one element.
-/

namespace SealedTunnel

open Cbor (View Takes Local)

namespace Der

/-! ## The form -/

/-- What follows an identifier up to the length. The number of the tag is in the identifier, or in
at most five more bytes, of which the last one alone is below 128. -/
inductive IsTag (identifier : UInt8) : Bytes → Prop
  | short : identifier.toNat % 32 < 31 → IsTag identifier []
  | long {more : Bytes} {last : UInt8} : identifier.toNat % 32 = 31 →
      (∀ b ∈ more, 128 ≤ b.toNat) → last.toNat < 128 → more.length < 5 →
      IsTag identifier (more ++ [last])

/-- The bytes of a length: one that is the length, or one that says how many bytes hold it. -/
inductive IsLength : Bytes → Nat → Prop
  | short {b : UInt8} : b.toNat < 128 → IsLength [b] b.toNat
  | long {b : UInt8} {digits : Bytes} : b.toNat = 128 + digits.length → digits ≠ [] →
      digits.length ≠ 127 → Bytes.toNat digits < 2 ^ 64 →
      IsLength (b :: digits) (Bytes.toNat digits)

/-- The bytes of an element. -/
def IsElement (b : Bytes) : Prop :=
  ∃ identifier tag length content, IsTag identifier tag ∧ IsLength length content.length ∧
    b = identifier :: (tag ++ (length ++ content))

/-! ## The form is what is read -/

/-- What a local reader takes is what it leaves nothing of. -/
theorem takes_iff {α : Type} {v : View α} (hv : Local v) {p : Bytes} {a : α} :
    Takes v p a ↔ v p = some (a, []) := by
  constructor
  · intro h
    have hall := h []
    rwa [List.append_nil] at hall
  · intro h
    obtain ⟨q, hq, htakes⟩ := hv p a [] h
    rw [List.append_nil] at hq
    rwa [hq]

theorem longTag_iff (room tag : Nat) (p : Bytes) :
    (∃ n, outcome (longTag room tag p) = some (n, [])) ↔
      ∃ more last, p = more ++ [last] ∧ (∀ b ∈ more, 128 ≤ b.toNat) ∧ last.toNat < 128 ∧
        more.length < room := by
  induction room generalizing tag p with
  | zero => simp [longTag]
  | succ room ih =>
    rcases p with _ | ⟨b, rest⟩
    · simp [longTag]
    by_cases hb : b.toNat < 128
    · -- the first byte is the last one
      simp only [longTag, if_pos hb, outcome_some, Option.some.injEq, Prod.mk.injEq]
      constructor
      · rintro ⟨n, -, rfl⟩
        exact ⟨[], b, rfl, List.forall_mem_nil _, hb, Nat.succ_pos room⟩
      · rintro ⟨more, last, heq, hmore, -, -⟩
        rcases more with _ | ⟨first, more⟩
        · exact ⟨_, rfl, (List.cons.inj heq).2⟩
        · obtain rfl := (List.cons.inj heq).1
          exact absurd hb (Nat.not_lt.mpr (hmore _ List.mem_cons_self))
    · have hstep : outcome (longTag (room + 1) tag (b :: rest)) =
          outcome (longTag room ((tag * 128 + b.toNat % 128) % tagBound) rest) := by
        rcases h : longTag room ((tag * 128 + b.toNat % 128) % tagBound) rest with _ | ⟨tag', rest'⟩
        · simp [longTag, hb, h]
        · simp [longTag, hb, h]
      rw [hstep, ih]
      constructor
      · rintro ⟨more, last, rfl, hmore, hlast, hlength⟩
        exact ⟨b :: more, last, rfl, List.forall_mem_cons.mpr ⟨Nat.le_of_not_lt hb, hmore⟩, hlast,
          Nat.succ_lt_succ hlength⟩
      · rintro ⟨more, last, heq, hmore, hlast, hlength⟩
        rcases more with _ | ⟨first, more⟩
        · obtain rfl := (List.cons.inj heq).1
          exact absurd hlast hb
        · exact ⟨more, last, (List.cons.inj heq).2, (List.forall_mem_cons.mp hmore).2, hlast,
            Nat.lt_of_succ_lt_succ hlength⟩

theorem isTag_iff {identifier : UInt8} {p : Bytes} :
    IsTag identifier p ↔ ∃ n, outcome (tagNumber identifier p) = some (n, []) := by
  by_cases hlow : identifier.toNat % 32 < 31
  · simp only [tagNumber, if_pos hlow, outcome_some, Option.some.injEq, Prod.mk.injEq]
    constructor
    · intro h
      cases h with
      | short => exact ⟨_, rfl, rfl⟩
      | long hhigh => omega
    · rintro ⟨n, -, rfl⟩
      exact .short hlow
  · have hhigh : identifier.toNat % 32 = 31 := by omega
    have hstep : outcome (tagNumber identifier p) = outcome (longTag 5 0 p) := by
      rcases h : longTag 5 0 p with _ | ⟨tag, rest⟩
      · simp [tagNumber, hlow, h]
      · simp [tagNumber, hlow, h]
    rw [hstep, longTag_iff]
    constructor
    · intro h
      cases h with
      | short h => exact absurd h hlow
      | long _ hmore hlast hlength => exact ⟨_, _, rfl, hmore, hlast, hlength⟩
    · rintro ⟨more, last, rfl, hmore, hlast, hlength⟩
      exact .long hhigh hmore hlast hlength

theorem isLength_iff {p : Bytes} {n : Nat} :
    IsLength p n ↔ outcome (Der.length p) = some (n, []) := by
  constructor
  · intro h
    cases h with
    | short hb => simp [Der.length, hb]
    | @long b digits hb hne hmax hvalue =>
      have hlong : ¬ b.toNat < 128 := by omega
      have hsize : b.toNat - 128 = digits.length := by omega
      have hzero : digits.length ≠ 0 := fun h => hne (List.length_eq_zero_iff.mp h)
      have hread : ¬ (digits.length = 0 ∨ digits.length = 127 ∨ digits.length < digits.length ∨
          2 ^ 64 ≤ Bytes.toNat digits) := by
        omega
      simp only [Der.length, if_neg hlong, hsize, List.take_length, if_neg hread, outcome_some,
        List.drop_length]
  · intro h
    rcases p with _ | ⟨b, rest⟩
    · cases h
    simp only [Der.length] at h
    split at h
    · rename_i hb
      obtain ⟨rfl, rfl⟩ := Prod.mk.inj (Option.some.inj h)
      exact .short hb
    · rename_i hb
      split at h
      · cases h
      · rename_i hread
        simp only [outcome_some, Option.some.injEq, Prod.mk.injEq] at h
        obtain ⟨rfl, hnil⟩ := h
        -- nothing is left, so the length takes all the bytes there are
        have hlength := List.drop_eq_nil_iff.mp hnil
        rw [List.take_of_length_le hlength] at hread ⊢
        have hne : rest ≠ [] := by
          rintro rfl
          rw [List.length_nil] at hread hlength
          omega
        have hvalue : Bytes.toNat rest < 2 ^ 64 :=
          Nat.lt_of_not_le fun h => hread (.inr (.inr (.inr h)))
        exact .long (by omega) hne (by omega) hvalue

/-- A head is an identifier, the rest of its tag, and a length. -/
theorem takes_head_iff {p : Bytes} {n : Nat} :
    (∃ head, Takes Head.view p head ∧ head.size = n) ↔
      ∃ identifier tag length, IsTag identifier tag ∧ IsLength length n ∧
        p = identifier :: (tag ++ length) := by
  simp only [takes_iff Head.local_view]
  constructor
  · rintro ⟨head, h, rfl⟩
    rcases p with _ | ⟨identifier, input⟩
    · cases h
    obtain ⟨_, h⟩ := outcome_eq_some.mp h
    simp only [Head.read] at h
    obtain ⟨⟨tag, afterTag, hafter⟩, htag, h⟩ := Option.bind_eq_some_iff.mp h
    obtain ⟨⟨size, body, hbody⟩, hsize, h⟩ := Option.bind_eq_some_iff.mp h
    obtain ⟨rfl, hnil⟩ := Prod.mk.inj (Option.some.inj h)
    obtain rfl := Subtype.mk.inj hnil
    obtain ⟨q, rfl, hq⟩ := local_tagNumber identifier input tag afterTag
      (outcome_eq_some.mpr ⟨hafter, htag⟩)
    refine ⟨identifier, q, afterTag, isTag_iff.mpr ⟨tag, ?_⟩, isLength_iff.mpr ?_, rfl⟩
    · exact (takes_iff (local_tagNumber identifier)).mp hq
    · exact outcome_eq_some.mpr ⟨hbody, hsize⟩
  · rintro ⟨identifier, q, length, hq, hlength, rfl⟩
    obtain ⟨tag, htag⟩ := isTag_iff.mp hq
    obtain ⟨hafter, hread⟩ :=
      outcome_eq_some.mp ((takes_iff (local_tagNumber identifier)).mpr htag length)
    obtain ⟨hbody, hsize⟩ := outcome_eq_some.mp (isLength_iff.mp hlength)
    refine ⟨{
      tagClass := Class.ofByte identifier, constructed := isConstructed identifier, tag
      size := n }, ?_, rfl⟩
    simp only [Head.view, Head.read, hread, hsize, Option.bind_eq_bind, Option.bind_some]
    rfl

/-- The bytes of an element are those that are read as one, with nothing left. -/
theorem isElement_iff {b : Bytes} : IsElement b ↔ ∃ e : Element, e.Fills b := by
  constructor
  · rintro ⟨identifier, tag, length, content, htag, hlength, rfl⟩
    obtain ⟨head, hhead, hsize⟩ := takes_head_iff.mpr ⟨identifier, tag, length, htag, hlength, rfl⟩
    obtain ⟨tagClass, constructed, tagNumber, size⟩ := head
    obtain rfl : size = content.length := hsize
    refine ⟨{
      tagClass, constructed, tag := tagNumber, content
      raw := identifier :: (tag ++ (length ++ content)) }, ⟨_, hhead, ?_⟩, rfl⟩
    simp
  · rintro ⟨e, ⟨p, hp, hraw⟩, rfl⟩
    obtain ⟨identifier, tag, length, htag, hlength, rfl⟩ := takes_head_iff.mp ⟨e.head, hp, rfl⟩
    refine ⟨identifier, tag, length, e.content, htag, hlength, ?_⟩
    rw [hraw]
    simp

end Der

end SealedTunnel
