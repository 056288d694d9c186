import SealedTunnel.Trust.Store

/-!
# Dialogues

What a computation asks, together with the answers it gets. A computation depends on whoever
answers only through its dialogue, so its checks are taken apart here without naming anybody.

* `Exchange`, `Consult.dialogue` — a question with its answer, and all of them in order.
* `Consult.Ends` — the computation ends with a value after a dialogue; `Consult.ends_dialogue`.
* `Passes`, `Fails` — a check comes out well or badly after a dialogue, with one lemma for each way
  of putting checks together.
-/

namespace SealedTunnel

/-- A question and its answer. -/
structure Exchange where
  /-- what is asked -/
  question : Question
  /-- what is answered -/
  answer : question.Answer

namespace Consult

variable {α β σ : Type}

/-- What is asked and answered, in order, if the answers come from a state. -/
def dialogue (answer : (q : Question) → σ → q.Answer × σ) : Consult α → σ → List Exchange
  | done _, _ => []
  | asking q next, s => ⟨q, (answer q s).1⟩ :: (next (answer q s).1).dialogue answer (answer q s).2

/-- A computation ends with a value after a dialogue. -/
def Ends : Consult α → List Exchange → α → Prop
  | done a, d, b => d = [] ∧ a = b
  | asking q next, d, b => ∃ answer rest, d = ⟨q, answer⟩ :: rest ∧ (next answer).Ends rest b

/-- Whoever answers, a computation ends after the dialogue with them. -/
theorem ends_dialogue (answer : (q : Question) → σ → q.Answer × σ) (c : Consult α) (s : σ) :
    c.Ends (c.dialogue answer s) (c.run answer s).1 := by
  induction c generalizing s with
  | done a => exact ⟨rfl, rfl⟩
  | asking q next ih => exact ⟨_, _, rfl, ih _ _⟩

/-- Every answer in a dialogue was given. -/
theorem answer_of_mem_dialogue {answer : (q : Question) → σ → q.Answer × σ} {c : Consult α} {s : σ}
    {x : Exchange} (h : x ∈ c.dialogue answer s) :
    ∃ s', (answer x.question s').1 = x.answer := by
  induction c generalizing s with
  | done a => exact absurd h List.not_mem_nil
  | asking q next ih =>
    obtain rfl | h := List.mem_cons.mp h
    · exact ⟨s, rfl⟩
    · exact ih _ h

/-- A dialogue decides what a computation ends with. -/
theorem Ends.unique {c : Consult α} {d : List Exchange} {a b : α} (ha : c.Ends d a)
    (hb : c.Ends d b) : a = b := by
  induction c generalizing d with
  | done a' => exact ha.2.symm.trans hb.2
  | asking q next ih =>
    obtain ⟨answer, rest, rfl, ha⟩ := ha
    obtain ⟨answer', rest', heq, hb⟩ := hb
    obtain ⟨hexchange, rfl⟩ := List.cons.inj heq
    obtain rfl := eq_of_heq (Exchange.mk.inj hexchange).2
    exact ih answer ha hb

/-- One computation after the other has one dialogue after the other. -/
theorem ends_bind {c : Consult α} {f : α → Consult β} {d : List Exchange} {b : β} :
    (c.bind f).Ends d b ↔ ∃ a d₁ d₂, d = d₁ ++ d₂ ∧ c.Ends d₁ a ∧ (f a).Ends d₂ b := by
  induction c generalizing d with
  | done a =>
    constructor
    · intro h
      exact ⟨a, [], d, rfl, ⟨rfl, rfl⟩, h⟩
    · rintro ⟨_, _, d₂, rfl, ⟨rfl, rfl⟩, h⟩
      exact h
  | asking q next ih =>
    constructor
    · rintro ⟨answer, rest, rfl, h⟩
      obtain ⟨a, d₁, d₂, rfl, ha, hb⟩ := (ih answer).mp h
      exact ⟨a, ⟨q, answer⟩ :: d₁, d₂, rfl, ⟨answer, d₁, rfl, ha⟩, hb⟩
    · rintro ⟨a, _, d₂, rfl, ⟨answer, d₁, rfl, ha⟩, hb⟩
      exact ⟨answer, d₁ ++ d₂, rfl, (ih answer).mpr ⟨a, d₁, d₂, rfl, ha, hb⟩⟩

end Consult

/-! ## Checks -/

namespace Check

variable {α β : Type} {d : List Exchange}

/-- A check comes out well after a dialogue. -/
def Passes (c : Check α) (d : List Exchange) (a : α) : Prop := Consult.Ends c.run d (.ok a)

/-- A check comes out badly after a dialogue. -/
def Fails (c : Check α) (d : List Exchange) (e : ChannelError) : Prop :=
  Consult.Ends c.run d (.error e)

theorem passes_bind {c : Check α} {f : α → Check β} {b : β} :
    Passes (c >>= f) d b ↔ ∃ a d₁ d₂, d = d₁ ++ d₂ ∧ Passes c d₁ a ∧ Passes (f a) d₂ b := by
  have hrun : (c >>= f).run = c.run.bind (ExceptT.bindCont f) := rfl
  rw [Passes, hrun, Consult.ends_bind]
  constructor
  · rintro ⟨e | a, d₁, d₂, rfl, hc, hf⟩
    · exact nomatch hf.2
    · exact ⟨a, d₁, d₂, rfl, hc, hf⟩
  · rintro ⟨a, d₁, d₂, rfl, hc, hf⟩
    exact ⟨.ok a, d₁, d₂, rfl, hc, hf⟩

theorem fails_bind {c : Check α} {f : α → Check β} {e : ChannelError} :
    Fails (c >>= f) d e ↔
      Fails c d e ∨ ∃ a d₁ d₂, d = d₁ ++ d₂ ∧ Passes c d₁ a ∧ Fails (f a) d₂ e := by
  have hrun : (c >>= f).run = c.run.bind (ExceptT.bindCont f) := rfl
  rw [Fails, hrun, Consult.ends_bind]
  constructor
  · rintro ⟨e' | a, d₁, d₂, rfl, hc, hf⟩
    · obtain ⟨rfl, he⟩ := hf
      obtain rfl := Except.error.inj he
      rw [List.append_nil]
      exact .inl hc
    · exact .inr ⟨a, d₁, d₂, rfl, hc, hf⟩
  · rintro (hc | ⟨a, d₁, d₂, rfl, hc, hf⟩)
    · exact ⟨.error e, d, [], (List.append_nil d).symm, hc, rfl, rfl⟩
    · exact ⟨.ok a, d₁, d₂, rfl, hc, hf⟩

theorem passes_pure {a b : α} : Passes (pure a) d b ↔ d = [] ∧ a = b :=
  and_congr_right fun _ => Except.ok.injEq a b ▸ Iff.rfl

theorem not_fails_pure {a : α} {e : ChannelError} : ¬ Fails (pure a) d e := fun h => nomatch h.2

theorem not_passes_throw {e : ChannelError} {a : α} : ¬ Passes (throw e) d a := fun h => nomatch h.2

theorem fails_throw {e e' : ChannelError} : Fails (throw e : Check α) d e' ↔ d = [] ∧ e = e' :=
  and_congr_right fun _ => Except.error.injEq (α := α) e e' ▸ Iff.rfl

/-- What comes after a refusal is reached if there was nothing to refuse. -/
theorem passes_guard {c : Prop} [Decidable c] {e : ChannelError} {f : Unit → Check α} {a : α} :
    Passes (if c then throw e >>= f else f ()) d a ↔ ¬ c ∧ Passes (f ()) d a := by
  by_cases hc : c
  · rw [if_pos hc]
    exact ⟨fun h => (not_passes_throw h).elim, fun h => absurd hc h.1⟩
  · rw [if_neg hc]
    exact ⟨fun h => ⟨hc, h⟩, fun h => h.2⟩

theorem fails_guard {c : Prop} [Decidable c] {e e' : ChannelError} {f : Unit → Check α} :
    Fails (if c then throw e >>= f else f ()) d e' ↔
      c ∧ d = [] ∧ e = e' ∨ ¬ c ∧ Fails (f ()) d e' := by
  by_cases hc : c
  · rw [if_pos hc]
    exact ⟨fun h => .inl ⟨hc, fails_throw.mp h⟩,
      fun h => h.elim (fun h => fails_throw.mpr h.2) fun h => absurd hc h.1⟩
  · rw [if_neg hc]
    exact ⟨fun h => .inr ⟨hc, h⟩, fun h => h.elim (fun h => absurd h.1 hc) And.right⟩

/-- What needs no answer has no dialogue. -/
theorem passes_lift {x : Except ChannelError α} {a : α} :
    Passes (liftM x) d a ↔ d = [] ∧ x = .ok a := Iff.rfl

theorem fails_lift {x : Except ChannelError α} {e : ChannelError} :
    Fails (liftM x : Check α) d e ↔ d = [] ∧ x = .error e := Iff.rfl

end Check

end SealedTunnel
