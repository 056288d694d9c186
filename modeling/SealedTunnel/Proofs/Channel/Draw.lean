import SealedTunnel.Channel.Envelope
import SealedTunnel.Proofs.Checks

/-!
# Computations that succeed and computations that fail

What the success of a computation says about its parts, and what its failure leaves behind, one
lemma for each way of putting parts together. Later proofs take a step of the protocol apart with
these and never run it.

* `checkCipherKey_eq_ok`, `Suite.encrypt_eq_ok`, `exactly_of_length` — the check of a key, the
  encryption under it, and the check of a part.
* `Draw.Yields` — a computation succeeds from a state; `Draw.yields_bind`, `Draw.yields_pure`,
  `Draw.yields_lift_bind`, `Draw.yields_locked`, `Draw.yields_random`, `Draw.yields_guard`.
* `Draw.Fails` — a computation fails from a state, with a lemma for each of these too.
* `Draw.FailsOnly` — all errors of a computation are of one kind.
* `Draw.Keeps`, `Draw.Spares` — a computation never changes a part of the state, or not if it fails.
* `Envelope.yields_encrypt`, `Envelope.decrypt_eq`, `Envelope.decrypt_eq_ok` — the envelopes of the
  handshake.
-/

namespace SealedTunnel

/-! ## Checks -/

theorem checkCipherKey_eq_ok {key : Bytes} {u : Unit} :
    checkCipherKey key = .ok u ↔ key.length = 32 := by
  simp only [checkCipherKey]
  by_cases h : key.length = 32
  · rw [if_pos h]
    exact ⟨fun _ => h, fun _ => rfl⟩
  · rw [if_neg h]
    exact ⟨fun he => (nomatch he), fun hk => absurd hk h⟩

theorem checkCipherKey_eq_error {key : Bytes} {e : ChannelError} :
    checkCipherKey key = .error e ↔ key.length ≠ 32 ∧ e = .internal "aead key" := by
  simp only [checkCipherKey]
  by_cases h : key.length = 32
  · rw [if_pos h]
    exact ⟨fun he => (nomatch he), fun hk => absurd h hk.1⟩
  · rw [if_neg h, Except.error.injEq, eq_comm]
    exact (and_iff_right h).symm

theorem Suite.encrypt_eq_ok {ρ : Type} {S : Suite ρ} {key iv aad plain sealedText : Bytes} :
    S.encrypt key iv aad plain = .ok sealedText ↔
      S.encrypt? key iv aad plain = some sealedText := by
  simp only [encrypt]
  cases S.encrypt? key iv aad plain with
  | none => exact ⟨fun h => (nomatch h), fun h => (nomatch h)⟩
  | some other => rw [Except.ok.injEq, Option.some.injEq]

/-- A part that has its size is read. -/
theorem exactly_of_length (what : String) {size : Nat} {part : Bytes} (h : part.length = size) :
    ∃ v, exactly what size part = .ok v ∧ v.toList = part :=
  ⟨⟨part.toArray, h⟩, dif_pos h, rfl⟩

/-! ## Draws -/

namespace Draw

variable {ρ σ α β : Type} {g g' : ρ}

/-- The computation succeeds from the state `g` with the value `a`, and leaves `g'`. -/
def Yields (d : Draw ρ α) (g : ρ) (a : α) (g' : ρ) : Prop :=
  (d.run g).1 = .ok a ∧ (d.run g).2 = g'

theorem run_bind (d : Draw ρ α) (f : α → Draw ρ β) (g : ρ) :
    (d >>= f).run g = ExceptT.bindCont f (d.run g).1 (d.run g).2 := rfl

theorem yields_bind {d : Draw ρ α} {f : α → Draw ρ β} {b : β} :
    Yields (d >>= f) g b g' ↔ ∃ a h, Yields d g a h ∧ Yields (f a) h b g' := by
  simp only [Yields]
  rw [run_bind]
  rcases d.run g with ⟨e | a, h⟩
  · constructor
    · rintro ⟨hb, _⟩
      exact nomatch hb
    · rintro ⟨a, h', ⟨ha, _⟩, _⟩
      exact nomatch ha
  · constructor
    · intro hb
      exact ⟨a, h, ⟨rfl, rfl⟩, hb⟩
    · rintro ⟨a', h', ⟨ha, rfl⟩, hb⟩
      obtain rfl := Except.ok.inj ha
      exact hb

theorem yields_pure {a b : α} : Yields (pure a : Draw ρ α) g b g' ↔ a = b ∧ g = g' := by
  constructor
  · rintro ⟨ha, hg⟩
    exact ⟨Except.ok.inj ha, hg⟩
  · rintro ⟨rfl, rfl⟩
    exact ⟨rfl, rfl⟩

/-- A check draws nothing. -/
theorem yields_lift_bind {e : Except ChannelError α} {f : α → Draw ρ β} {b : β} :
    Yields (liftM e >>= f) g b g' ↔ ∃ a, e = .ok a ∧ Yields (f a) g b g' := by
  constructor
  · intro h
    obtain ⟨a, _, ⟨ha, rfl⟩, h⟩ := yields_bind.mp h
    exact ⟨a, ha, h⟩
  · rintro ⟨a, ha, h⟩
    exact yields_bind.mpr ⟨a, g, ⟨ha, rfl⟩, h⟩

theorem not_yields_throw {e : ChannelError} {a : α} : ¬ Yields (throw e : Draw ρ α) g a g' := by
  rintro ⟨h, _⟩
  exact nomatch h

theorem yields_guard {c : Prop} [Decidable c] {e : ChannelError} {f : Unit → Draw ρ β} {b : β} :
    Yields (if c then throw e >>= f else f ()) g b g' ↔ ¬ c ∧ Yields (f ()) g b g' := by
  by_cases hc : c
  · rw [if_pos hc]
    refine ⟨fun h => ?_, fun h => absurd hc h.1⟩
    obtain ⟨_, _, hthrow, _⟩ := yields_bind.mp h
    exact absurd hthrow not_yields_throw
  · rw [if_neg hc]
    exact ⟨fun h => ⟨hc, h⟩, fun h => h.2⟩

theorem yields_get_bind {f : ρ → Draw ρ β} {b : β} :
    Yields (get >>= f) g b g' ↔ Yields (f g) g b g' := Iff.rfl

theorem yields_modify_bind {step : ρ → ρ} {f : PUnit → Draw ρ β} {b : β} :
    Yields (modify step >>= f) g b g' ↔ Yields (f ⟨⟩) (step g) b g' := Iff.rfl

/-- What stands beside the generator stays as it is. -/
theorem yields_beside {d : Draw ρ α} {s s' : σ} {a : α} :
    Yields d.beside (s, g) a (s', g') ↔ s' = s ∧ Yields d g a g' := by
  constructor
  · rintro ⟨ha, hstate⟩
    obtain ⟨hs, hg⟩ := Prod.mk.inj hstate
    exact ⟨hs.symm, ha, hg⟩
  · rintro ⟨rfl, ha, rfl⟩
    exact ⟨ha, rfl⟩

/-- The generator is used if nobody failed while using it. -/
theorem yields_locked {S : Suite ρ} {d : Draw ρ α} {a : α} :
    Yields (S.locked d) g a g' ↔ S.poisoned g = false ∧ Yields d g a g' := by
  simp only [Suite.locked, yields_get_bind]
  rw [yields_guard, Bool.not_eq_true]

theorem yields_bytes {S : Suite ρ} {n : Nat} {v : Vector UInt8 n} :
    Yields (S.bytes n) g v g' ↔ S.draw n g = (v, g') := by
  constructor
  · rintro ⟨hv, hg⟩
    exact Prod.ext (Except.ok.inj hv) hg
  · intro h
    exact ⟨congrArg Except.ok (congrArg Prod.fst h), congrArg Prod.snd h⟩

theorem yields_random {S : Suite ρ} {n : Nat} {v : Vector UInt8 n} :
    Yields (S.random n) g v g' ↔ S.poisoned g = false ∧ S.draw n g = (v, g') :=
  yields_locked.trans (and_congr_right fun _ => yields_bytes)

theorem Yields.run_eq {d : Draw ρ α} {a : α} (h : Yields d g a g') : d.run g = (.ok a, g') :=
  Prod.ext h.1 h.2

theorem Yields.of_run {d : Draw ρ α} {a : α} (h : d.run g = (.ok a, g')) : Yields d g a g' :=
  Prod.ext_iff.mp h

/-! ### Failure -/

/-- The computation fails from the state `g` with the error `e`. -/
def Fails (d : Draw ρ α) (g : ρ) (e : ChannelError) : Prop := (d.run g).1 = .error e

variable {e : ChannelError}

/-- A part fails, and all parts before it succeed. -/
theorem fails_bind {d : Draw ρ α} {f : α → Draw ρ β} :
    Fails (d >>= f) g e ↔ Fails d g e ∨ ∃ a h, Yields d g a h ∧ Fails (f a) h e := by
  simp only [Fails, Yields]
  rw [run_bind]
  rcases d.run g with ⟨e' | a, h⟩
  · constructor
    · exact fun he => .inl (congrArg Except.error (Except.error.inj he))
    · rintro (he | ⟨a, h', ⟨ha, _⟩, _⟩)
      · exact congrArg Except.error (Except.error.inj he)
      · exact nomatch ha
  · constructor
    · exact fun he => .inr ⟨a, h, ⟨rfl, rfl⟩, he⟩
    · rintro (he | ⟨a', h', ⟨ha, rfl⟩, he⟩)
      · exact nomatch he
      · obtain rfl := Except.ok.inj ha
        exact he

theorem fails_lift_bind {x : Except ChannelError α} {f : α → Draw ρ β} :
    Fails (liftM x >>= f) g e ↔ x = .error e ∨ ∃ a, x = .ok a ∧ Fails (f a) g e := by
  constructor
  · intro h
    obtain hx | ⟨a, _, ⟨ha, rfl⟩, h⟩ := fails_bind.mp h
    · exact .inl hx
    · exact .inr ⟨a, ha, h⟩
  · rintro (hx | ⟨a, ha, h⟩)
    · exact fails_bind.mpr (.inl hx)
    · exact fails_bind.mpr (.inr ⟨a, g, ⟨ha, rfl⟩, h⟩)

theorem fails_guard {c : Prop} [Decidable c] {e' : ChannelError} {f : Unit → Draw ρ β} :
    Fails (if c then throw e' >>= f else f ()) g e ↔ c ∧ e = e' ∨ ¬ c ∧ Fails (f ()) g e := by
  by_cases hc : c
  · rw [if_pos hc, or_iff_left fun h => h.1 hc, and_iff_right hc]
    exact ⟨fun h => (Except.error.inj h).symm, fun h => congrArg Except.error h.symm⟩
  · rw [if_neg hc, or_iff_right fun h => hc h.1, and_iff_right hc]

theorem fails_get_bind {f : ρ → Draw ρ β} : Fails (get >>= f) g e ↔ Fails (f g) g e := Iff.rfl

theorem not_fails_modify_pure {step : ρ → ρ} {a : α} :
    ¬ Fails (modify step >>= fun _ => pure a) g e := fun h => nomatch h

theorem fails_beside {d : Draw ρ α} {s : σ} : Fails d.beside (s, g) e ↔ Fails d g e := Iff.rfl

theorem fails_random {S : Suite ρ} {n : Nat} :
    Fails (S.random n) g e ↔ S.poisoned g = true ∧ e = .internal "rng lock poisoned" := by
  have hbytes : ¬ Fails (S.bytes n) g e := fun h => nomatch h
  simp only [Suite.random, Suite.locked, fails_get_bind]
  rw [fails_guard]
  exact or_iff_left fun h => hbytes h.2

/-! ### Kinds of errors -/

/-- Whatever goes wrong in a computation is of one kind, from whatever state it runs. -/
def FailsOnly (kind : ChannelError → Prop) (d : Draw ρ α) : Prop :=
  ∀ g, SealedTunnel.FailsOnly kind (d.run g).1

namespace FailsOnly

variable {kind kind' : ChannelError → Prop}

theorem pure (a : α) : FailsOnly kind (Pure.pure a : Draw ρ α) := fun _ => .ok a

theorem throw {e : ChannelError} (h : kind e) : FailsOnly kind (throw e : Draw ρ α) :=
  fun _ => .error h

theorem bytes {S : Suite ρ} (n : Nat) : FailsOnly kind (S.bytes n) := fun g => .ok (S.draw n g).1

theorem bind {d : Draw ρ α} {f : α → Draw ρ β} (hd : FailsOnly kind d)
    (hf : ∀ g a g', Yields d g a g' → FailsOnly kind (f a)) : FailsOnly kind (d >>= f) := by
  intro g e h
  obtain h | ⟨a, g', ha, h⟩ := fails_bind.mp h
  · exact hd g e h
  · exact hf g a g' ha g' e h

/-- A check draws nothing. -/
theorem lift_bind {x : Except ChannelError α} {f : α → Draw ρ β}
    (hx : SealedTunnel.FailsOnly kind x)
    (hf : ∀ a, x = .ok a → FailsOnly kind (f a)) : FailsOnly kind (liftM x >>= f) :=
  .bind (fun _ => hx) fun _ a _ h => hf a h.1

theorem guard {c : Prop} [Decidable c] {e : ChannelError} {f : Unit → Draw ρ β} (he : c → kind e)
    (hf : ¬ c → FailsOnly kind (f ())) :
    FailsOnly kind (if c then MonadExcept.throw e >>= f else f ()) := by
  by_cases hc : c
  · rw [if_pos hc]
    exact .bind (.throw (he hc)) fun _ _ _ h => absurd h not_yields_throw
  · rw [if_neg hc]
    exact hf hc

theorem get_bind {f : ρ → Draw ρ β} (hf : ∀ g, FailsOnly kind (f g)) :
    FailsOnly kind (get >>= f) := fun g => hf g g

theorem locked {S : Suite ρ} {d : Draw ρ α}
    (he : ∀ g, S.poisoned g = true → kind (.internal "rng lock poisoned"))
    (hd : FailsOnly kind d) : FailsOnly kind (S.locked d) :=
  .get_bind fun g => .guard (he g) fun _ => hd

theorem random {S : Suite ρ} (n : Nat)
    (he : ∀ g, S.poisoned g = true → kind (.internal "rng lock poisoned")) :
    FailsOnly kind (S.random n) := locked he (bytes n)

theorem imp {d : Draw ρ α} (h : FailsOnly kind d) (hkind : ∀ e, kind e → kind' e) :
    FailsOnly kind' d := fun g => (h g).imp hkind

end FailsOnly

/-! ### What is left behind -/

/-- The computation never changes this part of the state. -/
def Keeps (part : ρ → σ) (d : Draw ρ α) : Prop := ∀ g, part (d.run g).2 = part g

/-- The computation does not change this part of the state if it fails. -/
def Spares (part : ρ → σ) (d : Draw ρ α) : Prop :=
  ∀ g e, (d.run g).1 = .error e → part (d.run g).2 = part g

variable {part : ρ → σ}

theorem Spares.eq {d : Draw ρ α} {e : ChannelError} (hd : Spares part d)
    (h : d.run g = (.error e, g')) : part g' = part g := by
  obtain ⟨he, rfl⟩ := Prod.ext_iff.mp h
  exact hd g e he

theorem Keeps.get : Keeps part (MonadState.get : Draw ρ ρ) := fun _ => rfl

/-- A check changes nothing. -/
theorem Keeps.lift (x : Except ChannelError α) : Keeps part (liftM x : Draw ρ α) := by
  cases x <;> exact fun _ => rfl

theorem Keeps.beside (d : Draw ρ α) : Keeps Prod.fst (d.beside : Draw (σ × ρ) α) := fun _ => rfl

/-- What never fails spares everything. -/
theorem Spares.modify_pure (step : ρ → ρ) (a : α) :
    Spares part (modify step >>= fun _ => pure a : Draw ρ α) := fun _ _ h => nomatch h

/-- A part of the state that is changed last is spared. -/
theorem Spares.bind {d : Draw ρ α} {f : α → Draw ρ β} (hd : Keeps part d)
    (hf : ∀ a, Spares part (f a)) : Spares part (d >>= f) := by
  intro g e he
  have hkept := hd g
  rw [run_bind] at he ⊢
  rcases hresult : d.run g with ⟨e' | a, g'⟩
  · rw [hresult] at hkept
    exact hkept
  · rw [hresult] at hkept he
    exact (hf a g' e he).trans hkept

theorem Spares.guard {c : Prop} [Decidable c] {e : ChannelError} {f : Unit → Draw ρ β}
    (hf : Spares part (f ())) :
    Spares part (if c then MonadExcept.throw e >>= f else f ()) := by
  by_cases hc : c
  · rw [if_pos hc]
    exact fun g e he => rfl
  · rwa [if_neg hc]

end Draw

/-! ## Envelopes -/

namespace Envelope

open Draw (Yields yields_bind yields_pure yields_lift_bind yields_random)

variable {ρ : Type} {S : Suite ρ} {g g' : ρ}

theorem yields_encrypt {key plain envelope : Bytes} :
    Yields (encrypt S key plain) g envelope g' ↔ key.length = 32 ∧
      S.poisoned g = false ∧ ∃ iv sealedText, S.draw ivSize g = (iv, g') ∧
        S.encrypt? key iv.toList [] plain = some sealedText ∧
        envelope = iv.toList ++ sealedText := by
  simp only [encrypt]
  constructor
  · intro h
    obtain ⟨u, hkey, h⟩ := yields_lift_bind.mp h
    obtain ⟨iv, g₂, hiv, h⟩ := yields_bind.mp h
    obtain ⟨sealedText, hsealed, h⟩ := yields_lift_bind.mp h
    obtain ⟨rfl, rfl⟩ := yields_pure.mp h
    obtain ⟨hpoisoned, hdraw⟩ := yields_random.mp hiv
    exact ⟨checkCipherKey_eq_ok.mp hkey, hpoisoned, iv, sealedText, hdraw,
      Suite.encrypt_eq_ok.mp hsealed, rfl⟩
  · rintro ⟨hkey, hpoisoned, iv, sealedText, hdraw, hsealed, rfl⟩
    refine yields_lift_bind.mpr ⟨(), checkCipherKey_eq_ok.mpr hkey, ?_⟩
    refine yields_bind.mpr ⟨iv, g', yields_random.mpr ⟨hpoisoned, hdraw⟩, ?_⟩
    exact yields_lift_bind.mpr ⟨sealedText, Suite.encrypt_eq_ok.mpr hsealed,
      yields_pure.mpr ⟨rfl, rfl⟩⟩

/-- The parts of an envelope that is long enough have their sizes. -/
theorem decrypt_eq (step : String) (key envelope : Bytes) : decrypt S step key envelope = (do
    checkCipherKey key
    if envelope.length < ivSize + tagSize then throw (.authentication step)
    match S.decrypt? key (envelope.take ivSize) [] (envelope.drop ivSize) with
    | some plain => return plain
    | none => throw (.authentication step)) := by
  simp only [decrypt]
  refine congrArg (checkCipherKey key >>= ·) (funext fun _ => ?_)
  by_cases hlength : envelope.length < ivSize + tagSize
  · simp only [if_pos hlength]
    rfl
  · have hiv : (envelope.take ivSize).length = ivSize := by
      rw [List.length_take]
      omega
    have htag : (envelope.drop (envelope.length - tagSize)).length = tagSize := by
      rw [List.length_drop]
      omega
    obtain ⟨iv, hreadIv, hivList⟩ := exactly_of_length "iv" hiv
    obtain ⟨tag, hreadTag, htagList⟩ := exactly_of_length "tag" htag
    have hsealed : (envelope.take (envelope.length - tagSize)).drop ivSize ++ tag.toList =
        envelope.drop ivSize := by
      rw [htagList, ← List.drop_append_of_le_length, List.take_append_drop]
      rw [List.length_take]
      omega
    cases hopened : S.decrypt? key (envelope.take ivSize) [] (envelope.drop ivSize) <;>
      simp only [if_neg hlength, hreadIv, hreadTag, bind, Except.bind, hivList, hsealed, hopened]

theorem decrypt_eq_ok {step : String} {key envelope plain : Bytes} :
    decrypt S step key envelope = .ok plain ↔ key.length = 32 ∧
      ivSize + tagSize ≤ envelope.length ∧
      S.decrypt? key (envelope.take ivSize) [] (envelope.drop ivSize) = some plain := by
  rw [decrypt_eq]
  constructor
  · intro h
    obtain ⟨u, hkey, h⟩ := bind_eq_ok.mp h
    obtain ⟨hlength, h⟩ := guard_eq_ok.mp h
    refine ⟨checkCipherKey_eq_ok.mp hkey, Nat.le_of_not_lt hlength, ?_⟩
    cases hopened : S.decrypt? key (envelope.take ivSize) [] (envelope.drop ivSize) with
    | none =>
      rw [hopened] at h
      exact nomatch h
    | some opened =>
      rw [hopened] at h
      obtain rfl := Except.ok.inj h
      rfl
  · rintro ⟨hkey, hlength, hopened⟩
    refine bind_eq_ok.mpr ⟨(), checkCipherKey_eq_ok.mpr hkey, ?_⟩
    refine guard_eq_ok.mpr ⟨Nat.not_lt.mpr hlength, ?_⟩
    rw [hopened]
    rfl

end Envelope

end SealedTunnel
