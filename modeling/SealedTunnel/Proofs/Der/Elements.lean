import SealedTunnel.Der.Element
import SealedTunnel.Proofs.Cbor.View

/-!
# What is an element

A byte string that is read as elements is those elements one after the other, and nothing else.

* `View.bind`, `Local.bind` — a reader in two parts, of which only the outcome counts.
* `Head.view`, `Head.local_view` — heads.
* `Element.Sound` — the bytes of an element are a head, and content of the length it states.
* `Element.Fills`, `Element.Holds` — a byte string is an element, or elements in a row.
* `Element.read_eq_some`, `Element.list_eq_some`, `expect_eq_some` — this is what is read, and
  nothing else is.
-/

namespace SealedTunnel

open Cbor (View Takes Local takes_pure takes_cons local_pure local_fail local_cons)

/-! ## Readers in two parts -/

namespace Cbor

variable {α β : Type} {v : View α} {k : α → View β}

/-- One reader after the other. -/
def View.bind (v : View α) (k : α → View β) : View β := fun input =>
  (v input).bind fun (a, rest) => k a rest

theorem View.bind_eq_some {input rest : Bytes} {b : β} : v.bind k input = some (b, rest) ↔
    ∃ a middle, v input = some (a, middle) ∧ k a middle = some (b, rest) := by
  simp [View.bind, Option.bind_eq_some_iff]

theorem Takes.bind {p q : Bytes} {a : α} {b : β} (hv : Takes v p a) (hk : Takes (k a) q b) :
    Takes (v.bind k) (p ++ q) b := by
  intro tail
  rw [List.append_assoc]
  exact View.bind_eq_some.mpr ⟨a, q ++ tail, hv _, hk tail⟩

theorem Local.bind (hv : Local v) (hk : ∀ a, Local (k a)) : Local (v.bind k) := by
  intro input b rest h
  obtain ⟨a, middle, ha, hb⟩ := View.bind_eq_some.mp h
  obtain ⟨p, rfl, hp⟩ := hv input a middle ha
  obtain ⟨q, rfl, hq⟩ := hk a middle b rest hb
  exact ⟨p ++ q, (List.append_assoc p q rest).symm, hp.bind hq⟩

end Cbor

namespace Der

variable {α : Type} {P : Bytes → Prop}

/-- What was read and what is left, without the proof that this is shorter. -/
def outcome : Option (α × { rest : Bytes // P rest }) → Option (α × Bytes) :=
  Option.map fun (a, rest) => (a, rest.val)

@[simp] theorem outcome_none : outcome (none : Option (α × { rest : Bytes // P rest })) = none :=
  rfl

@[simp] theorem outcome_some (a : α) (rest : { rest : Bytes // P rest }) :
    outcome (some (a, rest)) = some (a, rest.val) := rfl

theorem outcome_eq_some {x : Option (α × { rest : Bytes // P rest })} {a : α} {rest : Bytes} :
    outcome x = some (a, rest) ↔ ∃ h, x = some (a, ⟨rest, h⟩) := by
  rcases x with _ | ⟨b, rest', h⟩
  · simp
  · constructor
    · intro heq
      obtain ⟨rfl, rfl⟩ := Prod.mk.inj (Option.some.inj heq)
      exact ⟨h, rfl⟩
    · rintro ⟨h, heq⟩
      simp [heq]

/-! ## Heads -/

theorem local_longTag (room tag : Nat) : Local fun input => outcome (longTag room tag input) := by
  induction room generalizing tag with
  | zero => exact local_fail
  | succ room ih =>
    refine local_cons rfl fun b => ?_
    by_cases hb : b.toNat < 128
    · simp only [longTag, if_pos hb]
      exact local_pure _
    · have hview : (fun rest => outcome (longTag (room + 1) tag (b :: rest))) =
          fun rest => outcome (longTag room ((tag * 128 + b.toNat % 128) % tagBound) rest) := by
        funext rest
        rcases h : longTag room ((tag * 128 + b.toNat % 128) % tagBound) rest with _ | ⟨tag', rest'⟩
        · simp [longTag, hb, h]
        · simp [longTag, hb, h]
      rw [hview]
      exact ih _

theorem local_tagNumber (identifier : UInt8) :
    Local fun input => outcome (tagNumber identifier input) := by
  by_cases hlow : identifier.toNat % 32 < 31
  · simp only [tagNumber, if_pos hlow]
    exact local_pure _
  · have hview : (fun input => outcome (tagNumber identifier input)) =
        fun input => outcome (longTag 5 0 input) := by
      funext input
      rcases h : longTag 5 0 input with _ | ⟨tag, rest⟩
      · simp [tagNumber, hlow, h]
      · simp [tagNumber, hlow, h]
    rw [hview]
    exact local_longTag 5 0

/-- So many bytes. -/
def exactly (n : Nat) : View Bytes := fun input =>
  if input.length < n then none else some (input.take n, input.drop n)

theorem takes_exactly (b : Bytes) : Takes (exactly b.length) b b := by
  intro tail
  simp [exactly]

theorem local_exactly (n : Nat) : Local (exactly n) := by
  intro input b rest h
  simp only [exactly] at h
  split at h
  · exact nomatch h
  · rename_i hlength
    obtain ⟨rfl, rfl⟩ := Prod.mk.inj (Option.some.inj h)
    have htakes := takes_exactly (input.take n)
    rw [List.length_take, Nat.min_eq_left (Nat.le_of_not_lt hlength)] at htakes
    exact ⟨input.take n, (List.take_append_drop n input).symm, htakes⟩

theorem local_length : Local fun input => outcome (Der.length input) := by
  refine local_cons rfl fun b => ?_
  by_cases hb : b.toNat < 128
  · simp only [Der.length, if_pos hb]
    exact local_pure _
  by_cases hsize : b.toNat - 128 = 0 ∨ b.toNat - 128 = 127
  · have hview : (fun rest => outcome (Der.length (b :: rest))) = View.fail := by
      funext rest
      have hnone : b.toNat - 128 = 0 ∨ b.toNat - 128 = 127 ∨ rest.length < b.toNat - 128 ∨
          2 ^ 64 ≤ Bytes.toNat (rest.take (b.toNat - 128)) := by
        omega
      simp only [Der.length, if_neg hb, if_pos hnone, outcome_none, View.fail]
    rw [hview]
    exact local_fail
  · have hview : (fun rest => outcome (Der.length (b :: rest))) =
        (exactly (b.toNat - 128)).bind fun size =>
          if 2 ^ 64 ≤ Bytes.toNat size then View.fail else View.pure (Bytes.toNat size) := by
      funext rest
      simp only [Der.length, if_neg hb, View.bind, exactly]
      by_cases hshort : rest.length < b.toNat - 128
      · simp [hshort]
      · by_cases hlarge : 2 ^ 64 ≤ Bytes.toNat (rest.take (b.toNat - 128))
        · have hnone : b.toNat - 128 = 0 ∨ b.toNat - 128 = 127 ∨ rest.length < b.toNat - 128 ∨
              2 ^ 64 ≤ Bytes.toNat (rest.take (b.toNat - 128)) := .inr (.inr (.inr hlarge))
          simp only [if_pos hnone, if_neg hshort, Option.bind_some, if_pos hlarge, View.fail,
            outcome_none]
        · have hsome : ¬ (b.toNat - 128 = 0 ∨ b.toNat - 128 = 127 ∨ rest.length < b.toNat - 128 ∨
              2 ^ 64 ≤ Bytes.toNat (rest.take (b.toNat - 128))) := by
            omega
          simp only [if_neg hsome, if_neg hshort, Option.bind_some, if_neg hlarge, View.pure,
            outcome_some]
    rw [hview]
    refine (local_exactly _).bind fun size => ?_
    split
    · exact local_fail
    · exact local_pure _

/-- Heads, as they are read. -/
def Head.view : View Head := fun input => outcome (Head.read input)

theorem Head.local_view : Local Head.view := by
  refine local_cons rfl fun identifier => ?_
  have hview : (fun input => Head.view (identifier :: input)) =
      View.bind (fun input => outcome (tagNumber identifier input)) fun tag =>
        View.bind (fun input => outcome (Der.length input)) fun size =>
          View.pure {
            tagClass := Class.ofByte identifier, constructed := isConstructed identifier, tag
            size } := by
    funext input
    simp only [view, Head.read, View.bind]
    rcases tagNumber identifier input with _ | ⟨tag, middle, hmiddle⟩
    · rfl
    · dsimp only [outcome_some, Option.bind_eq_bind, Option.bind_some]
      rcases Der.length middle with _ | ⟨size, rest, hrest⟩
      · rfl
      · rfl
  rw [hview]
  exact (local_tagNumber identifier).bind fun tag => local_length.bind fun size => local_pure _

/-- No length is read that takes more than 64 bits. -/
theorem length_lt {input rest : Bytes} {n : Nat}
    (h : outcome (Der.length input) = some (n, rest)) : n < 2 ^ 64 := by
  rcases input with _ | ⟨b, input⟩
  · exact nomatch h
  · simp only [Der.length] at h
    split at h
    · obtain ⟨rfl, -⟩ := Prod.mk.inj (Option.some.inj h)
      have := b.toNat_lt
      omega
    · split at h
      · exact nomatch h
      · rename_i hnone
        obtain ⟨rfl, -⟩ := Prod.mk.inj (Option.some.inj h)
        omega

theorem Head.size_lt {input rest : Bytes} {head : Head}
    (h : Head.view input = some (head, rest)) : head.size < 2 ^ 64 := by
  rcases input with _ | ⟨identifier, input⟩
  · exact nomatch h
  · obtain ⟨_, h⟩ := outcome_eq_some.mp h
    simp only [Head.read] at h
    obtain ⟨⟨tag, afterTag, _⟩, -, h⟩ := Option.bind_eq_some_iff.mp h
    obtain ⟨⟨size, body, _⟩, hsize, h⟩ := Option.bind_eq_some_iff.mp h
    obtain ⟨rfl, -⟩ := Prod.mk.inj (Option.some.inj h)
    exact length_lt (outcome_eq_some.mpr ⟨_, hsize⟩)

/-! ## Elements -/

namespace Element

variable {e : Element} {input rest : Bytes} {items : List Element}

/-- What stands before the content of an element. -/
def head (e : Element) : Head where
  tagClass := e.tagClass
  constructed := e.constructed
  tag := e.tag
  size := e.content.length

/-- The bytes of an element are its head, and its content after it. -/
def Sound (e : Element) : Prop := ∃ p, Takes Head.view p e.head ∧ e.raw = p ++ e.content

/-- An element is all of a byte string. -/
def Fills (e : Element) (b : Bytes) : Prop := e.Sound ∧ b = e.raw

/-- A byte string is these elements, one after the other. -/
def Holds (b : Bytes) (items : List Element) : Prop :=
  (∀ e ∈ items, e.Sound) ∧ b = (items.map Element.raw).flatten

theorem Sound.raw_ne_nil (h : e.Sound) : e.raw ≠ [] := by
  obtain ⟨p, hp, hraw⟩ := h
  intro hnil
  obtain ⟨rfl, -⟩ := List.append_eq_nil_iff.mp (hraw.symm.trans hnil)
  exact nomatch hp []

theorem Sound.content_length_lt (h : e.Sound) : e.content.length < 2 ^ 64 := by
  obtain ⟨p, hp, -⟩ := h
  exact Head.size_lt (hp [])

/-- What is read is a sound element, and what follows it is left. -/
theorem read_eq_some : outcome (Element.read input) = some (e, rest) ↔
    e.Sound ∧ input = e.raw ++ rest := by
  simp only [Element.read]
  constructor
  · intro h
    rcases hhead : Head.read input with _ | ⟨head, body, hbody⟩
    · simp [hhead] at h
    · have hview : Head.view input = some (head, body) := by
        rw [Head.view, hhead]
        rfl
      obtain ⟨p, rfl, hp⟩ := Head.local_view input head body hview
      simp only [hhead, Option.bind_eq_bind, Option.bind_some] at h
      split at h
      · exact nomatch h
      · rename_i hlength
        obtain ⟨rfl, rfl⟩ := Prod.mk.inj (Option.some.inj h)
        have hsize : (body.take head.size).length = head.size := by
          rw [List.length_take]
          omega
        have hraw : (p ++ body).take ((p ++ body).length - (body.drop head.size).length) =
            p ++ body.take head.size := by
          have hcount : (p ++ body).length - (body.drop head.size).length =
              p.length + head.size := by
            simp only [List.length_append, List.length_drop]
            omega
          rw [hcount, List.take_length_add_append]
        simp only [hraw]
        refine ⟨⟨p, ?_, rfl⟩, ?_⟩
        · simpa [Element.head, hsize] using hp
        · rw [List.append_assoc, List.take_append_drop]
  · rintro ⟨⟨p, hp, hraw⟩, rfl⟩
    have hview := hp (e.content ++ rest)
    rw [← List.append_assoc, ← hraw] at hview
    obtain ⟨hbody, hhead⟩ := outcome_eq_some.mp hview
    rw [hhead]
    have hshort : ¬ (e.content ++ rest).length < e.head.size := by
      simp [Element.head]
    simp only [Option.bind_eq_bind, Option.bind_some, if_neg hshort]
    simp [Element.head]

theorem read_append (h : e.Sound) (rest : Bytes) :
    ∃ h, Element.read (e.raw ++ rest) = some (e, ⟨rest, h⟩) :=
  outcome_eq_some.mp (read_eq_some.mpr ⟨h, rfl⟩)

/-- An input is read as elements exactly if it is these elements. -/
theorem list_eq_some : Element.list input = some items ↔ Holds input items := by
  induction items generalizing input with
  | nil =>
    rw [Element.list]
    split
    · rename_i hnil
      simp [Holds, hnil]
    · rename_i hnil
      simp [Holds, hnil, Option.bind_eq_some_iff]
  | cons first more ih =>
    rw [Element.list]
    split
    · rename_i hnil
      subst hnil
      constructor
      · intro h
        exact nomatch h
      · rintro ⟨hsound, hraw⟩
        obtain ⟨hfirst, -⟩ := List.append_eq_nil_iff.mp hraw.symm
        exact absurd hfirst (hsound first List.mem_cons_self).raw_ne_nil
    · constructor
      · intro h
        obtain ⟨⟨e, rest, hrest⟩, hread, h⟩ := Option.bind_eq_some_iff.mp h
        obtain ⟨more', hmore, h⟩ := Option.bind_eq_some_iff.mp h
        obtain ⟨rfl, rfl⟩ := List.cons.inj (Option.some.inj h)
        obtain ⟨hsound, rfl⟩ := read_eq_some.mp (outcome_eq_some.mpr ⟨hrest, hread⟩)
        obtain ⟨hall, rfl⟩ := ih.mp hmore
        exact ⟨List.forall_mem_cons.mpr ⟨hsound, hall⟩, rfl⟩
      · rintro ⟨hsound, rfl⟩
        obtain ⟨hfirst, hmore⟩ := List.forall_mem_cons.mp hsound
        obtain ⟨hrest, hread⟩ := read_append hfirst (more.map Element.raw).flatten
        have hlist := ih.mpr ⟨hmore, rfl⟩
        rw [List.map_cons, List.flatten_cons]
        exact Option.bind_eq_some_iff.mpr
          ⟨_, hread, Option.bind_eq_some_iff.mpr ⟨more, hlist, rfl⟩⟩

end Element

/-! ## Parts -/

theorem head_read_append {e : Element} (h : e.Sound) (rest : Bytes) :
    ∃ body, Head.read (e.raw ++ rest) = some (e.head, body) := by
  obtain ⟨p, hp, hraw⟩ := h
  obtain ⟨hbody, hhead⟩ := outcome_eq_some.mp (hp (e.content ++ rest))
  rw [hraw, List.append_assoc]
  exact ⟨_, hhead⟩

theorem expect_eq_some {tag : Nat} {input rest : Bytes} {e : Element} :
    expect tag input = some (e, rest) ↔ e.Sound ∧ e.tag = tag ∧ input = e.raw ++ rest := by
  constructor
  · intro h
    obtain ⟨⟨e', rest', hrest⟩, hread, h⟩ := Option.bind_eq_some_iff.mp h
    dsimp only at h
    split at h
    · rename_i htag
      obtain ⟨rfl, rfl⟩ := Prod.mk.inj (Option.some.inj h)
      obtain ⟨hsound, hinput⟩ := Element.read_eq_some.mp (outcome_eq_some.mpr ⟨hrest, hread⟩)
      exact ⟨hsound, htag, hinput⟩
    · exact nomatch h
  · rintro ⟨hsound, htag, rfl⟩
    obtain ⟨_, hread⟩ := Element.read_append hsound rest
    simp only [expect, hread, Option.bind_eq_bind, Option.bind_some, if_pos htag]

end Der

end SealedTunnel
