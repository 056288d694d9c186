import SealedTunnel.Cbor.Record
import SealedTunnel.Proofs.Checks

/-!
# What a reader takes from its input

A reader that makes progress carries the proof of it along, which gets in the
way of equations. Its view forgets the proof, and the reason of a failure.

* `View`, `view` — the views of readers.
* `Takes` — a byte string is taken as a value, whatever follows.
* `Local` — nothing is ever taken otherwise: what is taken does not depend on what follows.
* `Takes.unique` — a concatenation of byte strings that are taken falls apart in one way only.
* `takes_bind`, `local_bind`, `local_bind_check` — readers in two parts.
* `Head.local_read` — heads.
-/

namespace SealedTunnel

namespace Cbor

variable {α β : Type}

/-! ## Views -/

/-- A function that takes a value from the front of its input. -/
def View (α : Type) : Type := Bytes → Option (α × Bytes)

/-- A value, of which nothing is read. -/
def View.pure (a : α) : View α := fun input => some (a, input)

/-- No value. -/
def View.fail : View α := fun _ => none

/-- What was read and what is left. -/
def outcome {P : Bytes → Prop} : Except Fault (α × { rest : Bytes // P rest }) →
    Option (α × Bytes)
  | .ok (a, rest) => some (a, rest.val)
  | .error _ => none

theorem outcome_eq_some {P : Bytes → Prop} {x : Except Fault (α × { rest : Bytes // P rest })}
    {a : α} {rest : Bytes} : outcome x = some (a, rest) ↔ ∃ h, x = .ok (a, ⟨rest, h⟩) := by
  rcases x with fault | ⟨b, rest', hrest'⟩
  · constructor
    · intro h
      exact nomatch h
    · rintro ⟨_, h⟩
      exact nomatch h
  · constructor
    · intro h
      obtain ⟨rfl, rfl⟩ := Prod.mk.inj (Option.some.inj h)
      exact ⟨hrest', rfl⟩
    · rintro ⟨_, h⟩
      obtain ⟨rfl, heq⟩ := Prod.mk.inj (Except.ok.inj h)
      obtain rfl := Subtype.mk.inj heq
      rfl

/-- What is left may be proved to be shorter in another way. -/
theorem outcome_bind {P P' : Bytes → Prop} {x : Except Fault (α × { rest : Bytes // P rest })}
    {k : α × { rest : Bytes // P rest } → Except Fault (α × { rest : Bytes // P' rest })}
    (hk : ∀ a rest, outcome (k (a, rest)) = some (a, rest.val)) :
    outcome (x >>= k) = outcome x := by
  rcases x with fault | ⟨a, rest⟩
  · rfl
  · exact hk a rest

variable {Q Q' : Bytes → Bytes → Prop}

/-- A reader, without the proof that it makes progress. -/
def view (f : (input : Bytes) → Except Fault (α × { rest : Bytes // Q rest input })) : View α :=
  fun input => outcome (f input)

variable {f : (input : Bytes) → Except Fault (α × { rest : Bytes // Q rest input })}

theorem view_eq_some {input rest : Bytes} {a : α} :
    view f input = some (a, rest) ↔ ∃ h, f input = .ok (a, ⟨rest, h⟩) := outcome_eq_some

/-- A reader that makes progress takes at least one byte. -/
theorem ne_nil_of_view {r : (input : Bytes) → Except Fault (α × Rest input)} {p rest : Bytes}
    {a : α}
    (h : view r (p ++ rest) = some (a, rest)) : p ≠ [] := by
  rintro rfl
  obtain ⟨hlt, -⟩ := view_eq_some.mp h
  exact Nat.lt_irrefl _ hlt

/-! ## Locality -/

/-- The reader takes the value `a` from `p`, whatever follows. -/
def Takes (v : View α) (p : Bytes) (a : α) : Prop := ∀ tail, v (p ++ tail) = some (a, tail)

/-- What the reader takes does not depend on what follows. -/
def Local (v : View α) : Prop := ∀ input a rest, v input = some (a, rest) →
  ∃ p, input = p ++ rest ∧ Takes v p a

/-- Nothing is taken in two ways. -/
theorem Takes.unique {v : View α} {p q s t : Bytes} {a b : α} (hp : Takes v p a)
    (hq : Takes v q b) (h : p ++ s = q ++ t) : p = q ∧ a = b ∧ s = t := by
  have heq := hp s
  rw [h, hq t] at heq
  obtain ⟨rfl, rfl⟩ := Prod.mk.inj (Option.some.inj heq)
  exact ⟨List.append_cancel_right h, rfl, rfl⟩

theorem takes_pure (a : α) : Takes (View.pure a) [] a := fun _ => rfl

theorem local_fail : Local (View.fail : View α) := fun _ _ _ h => nomatch h

theorem local_pure (a : α) : Local (View.pure a) := by
  intro input b rest h
  obtain ⟨rfl, rfl⟩ := Prod.mk.inj (Option.some.inj h)
  exact ⟨[], rfl, takes_pure a⟩

theorem takes_cons {v : View α} {x : UInt8} {p : Bytes} {a : α}
    (h : Takes (fun input => v (x :: input)) p a) : Takes v (x :: p) a := h

/-- A reader that needs at least one byte takes what it takes after it. -/
theorem local_cons {v : View α} (hnil : v [] = none)
    (h : ∀ x, Local fun input => v (x :: input)) : Local v := by
  intro input a rest hsome
  cases input with
  | nil => exact nomatch hnil.symm.trans hsome
  | cons x input =>
    obtain ⟨p, rfl, hp⟩ := h x input a rest hsome
    exact ⟨x :: p, rfl, takes_cons hp⟩

variable {k : (input : Bytes) → α × { rest : Bytes // Q rest input } →
  Except Fault (β × { rest : Bytes // Q' rest input })}

theorem view_bind_eq_some {input rest : Bytes} {b : β} :
    view (fun input => f input >>= k input) input = some (b, rest) ↔
      ∃ a middle, f input = .ok (a, middle) ∧ outcome (k input (a, middle)) = some (b, rest) := by
  constructor
  · intro h
    obtain ⟨hrest, h⟩ := view_eq_some.mp h
    obtain ⟨⟨a, middle⟩, ha, hb⟩ := bind_eq_ok.mp h
    exact ⟨a, middle, ha, outcome_eq_some.mpr ⟨hrest, hb⟩⟩
  · rintro ⟨a, middle, ha, h⟩
    obtain ⟨hrest, hb⟩ := outcome_eq_some.mp h
    exact view_eq_some.mpr ⟨hrest, bind_eq_ok.mpr ⟨(a, middle), ha, hb⟩⟩

/-- A reader in two parts takes what its parts take, one after the other. -/
theorem takes_bind {g : View β} {p q : Bytes} {a : α} {b : β} (hf : Takes (view f) p a)
    (hk : ∀ input rest, outcome (k input (a, rest)) = g rest.val) (hg : Takes g q b) :
    Takes (view fun input => f input >>= k input) (p ++ q) b := by
  intro tail
  obtain ⟨hrest, ha⟩ := view_eq_some.mp (hf (q ++ tail))
  rw [List.append_assoc]
  refine view_bind_eq_some.mpr ⟨a, ⟨q ++ tail, hrest⟩, ha, ?_⟩
  rw [hk]
  exact hg tail

/-- Nothing more is taken if only the value is left to be made. -/
theorem takes_bind_pure {p : Bytes} {a : α} {b : β} (hf : Takes (view f) p a)
    (hk : ∀ input rest, outcome (k input (a, rest)) = some (b, rest.val)) :
    Takes (view fun input => f input >>= k input) p b := by
  have h := takes_bind hf hk (takes_pure b)
  rwa [List.append_nil] at h

/-- A reader in two parts is local if its parts are. -/
theorem local_bind (hf : Local (view f))
    (hk : ∀ a, ∃ g, Local g ∧ ∀ input rest, outcome (k input (a, rest)) = g rest.val) :
    Local (view fun input => f input >>= k input) := by
  intro input b rest h
  obtain ⟨a, middle, ha, hb⟩ := view_bind_eq_some.mp h
  obtain ⟨g, hg, hkg⟩ := hk a
  rw [hkg] at hb
  obtain ⟨p, hp, htakes⟩ := hf _ _ _ (view_eq_some.mpr ⟨middle.property, ha⟩)
  obtain ⟨q, hq, htakes'⟩ := hg _ _ _ hb
  refine ⟨p ++ q, ?_, takes_bind htakes hkg htakes'⟩
  rw [hp, hq, List.append_assoc]

/-- A value that is read has to pass a check. -/
theorem local_bind_check {γ : Type} (hf : Local (view f)) (check : α → Except Fault β)
    (use : α → β → γ) : Local (view fun input => do
      let (a, rest) ← f input
      let b ← check a
      return (use a b, rest)) := by
  refine local_bind hf fun a => ?_
  cases hb : check a with
  | error fault =>
    refine ⟨_, local_fail, fun input rest => ?_⟩
    dsimp only
    rw [hb]
    rfl
  | ok b =>
    refine ⟨_, local_pure (use a b), fun input rest => ?_⟩
    dsimp only
    rw [hb]
    rfl

variable (f) in
/-- A function of the value that is read. -/
theorem view_map (m : α → β) :
    view (fun input => (fun result => (m result.1, result.2)) <$> f input) =
      view fun input => f input >>= fun result => pure (m result.1, result.2) := by
  funext input
  simp only [view]
  cases f input <;> rfl

theorem local_map (hf : Local (view f)) (m : α → β) :
    Local (view fun input => (fun result => (m result.1, result.2)) <$> f input) := by
  rw [view_map]
  exact local_bind hf fun a => ⟨_, local_pure (m a), fun _ _ => rfl⟩

/-! ## Heads -/

namespace Head

theorem view_take? (n : Nat) (input : Bytes) : view (take? n) input =
    if n ≤ input.length then some (input.take n, input.drop n) else none := by
  simp only [view, take?]
  split <;> rfl

theorem takes_take? (b : Bytes) : Takes (view (take? b.length)) b b := by
  intro tail
  rw [view_take?, if_pos (by simp), List.take_left, List.drop_left]

theorem local_take? (n : Nat) : Local (view (take? n)) := by
  intro input b rest h
  rw [view_take?] at h
  split at h
  · rename_i hle
    obtain ⟨rfl, rfl⟩ := Prod.mk.inj (Option.some.inj h)
    have htakes := takes_take? (input.take n)
    rw [List.length_take, Nat.min_eq_left hle] at htakes
    exact ⟨input.take n, (List.take_append_drop n input).symm, htakes⟩
  · exact nomatch h

theorem local_argument (low : Nat) : Local (view (argument low)) := by
  unfold argument
  by_cases hsmall : low < 24
  · simp only [if_pos hsmall]
    exact local_pure low
  by_cases hsize : low < 28
  · simp only [if_neg hsmall, if_pos hsize]
    exact local_bind (local_take? _) fun b => ⟨_, local_pure (Bytes.toNat b), fun _ _ => rfl⟩
  · simp only [if_neg hsmall, if_neg hsize]
    exact local_fail

theorem local_read : Local (view read) := by
  refine local_cons rfl fun first => ?_
  simp only [view, read]
  by_cases h7 : first.toNat / 32 = 7
  · simp only [if_pos h7]
    cases simple? (first.toNat % 32) with
    | none => exact local_fail
    | some result =>
      obtain ⟨head, size⟩ := result
      exact local_bind (local_take? size) fun _ => ⟨_, local_pure head, fun _ _ => rfl⟩
  by_cases h31 : first.toNat % 32 = 31
  · simp only [if_neg h7, if_pos h31]
    cases unsized? (first.toNat / 32) with
    | none => exact local_fail
    | some head => exact local_pure head
  · simp only [if_neg h7, if_neg h31]
    exact local_bind (local_argument _) fun n => ⟨_, local_pure (sized _ n), fun _ _ => rfl⟩

end Head

end Cbor

end SealedTunnel
