import SealedTunnel.Proofs.Client.Eviction

/-!
# What leaves the map

A task takes nothing out of the map but what it failed with: the slot of its own handshake, or the
slot that holds its own line. What came in the meantime stays.

* `Pool.Removes` — a task takes an entry out of the map; `Pool.Transition.removes`.
* `Phase.Has` — a task has a line, uses it, or has ended with it.
* `Pool.Transition.has_before`, `Pool.has_before` — nobody comes to a line that is cut off.
* `Pool.Transition.failed` — how a task ends with an error that is not about a message.
* `Pool.removal` — only the failed slot or line goes, and nobody who looks afterwards finds it.
-/

namespace SealedTunnel

/-- A task in this phase has a line, uses it, or has ended with it. -/
def Phase.Has (line : Nat) : Phase → Prop
  | .connected l | .ready l _ | .exchanging l _ | .evicting l _ => l = line
  | .finished (.ok (.line l)) => l = line
  | _ => False

namespace Pool

variable {ρ τ : Type} {S : Suite ρ} {client : Client τ} {p q : Pool ρ}
  {slotKeys lineKeys : List Key}

/-! ## Entries -/

/-- A task is about to take an entry of its key out of the map: its handshake failed in that slot,
which has no line, or its exchange failed on the line in that slot. -/
def Removes (p : Pool ρ) (i : Nat) (key : Key) (slot : Nat) : Prop :=
  ∃ t : Task, p.tasks[i]? = some t ∧ t.key = key ∧
    ((p.lineOf? slot = none ∧ ∃ e, t.phase = .failing slot e) ∨
      ∃ line e, t.phase = .evicting line e ∧ p.lineOf? slot = some line)

/-- A task that evicts a line does so under its own key. -/
theorem Owned.evict_key (hp : p.Owned slotKeys lineKeys) {i line : Nat} {t : Task} {l : Line}
    {e : ClientError} (ht : p.tasks[i]? = some t) (hphase : t.phase = .evicting line e)
    (hl : p.lines[line]? = some l) : (l.connection.endpoint.text, t.key.2) = t.key := by
  obtain ⟨key, hkey, htext⟩ := hp.located line l hl
  have hbelongs : lineKeys[line]? = some t.key := hp.belongs ht hphase
  obtain rfl := Option.some.inj (hkey.symm.trans hbelongs)
  rw [htext]

/-- Nothing else takes an entry out. -/
theorem Transition.removes {m : Move} (h : Transition S client p m q) (hg : p.Guarded)
    (hp : p.Owned slotKeys lineKeys) {key : Key} {slot : Nat} (hmem : (key, slot) ∈ p.entries)
    (hgone : (key, slot) ∉ q.entries) : ∃ i, m = .advance i ∧ p.Removes i key slot := by
  cases h with
  | @cleared i slot' t e htask hphase =>
    refine ⟨i, rfl, t, htask, ?_⟩
    -- what does not match the failed slot is kept
    obtain ⟨rfl, rfl⟩ : key = t.key ∧ slot = slot' := by
      by_contra hne
      exact hgone (List.mem_filter.mpr ⟨hmem, decide_eq_true hne⟩)
    have hguards := hg.guards i t slot htask (by rw [hphase]; rfl)
    exact ⟨rfl, .inl ⟨hguards.lineOf?_eq, e, hphase⟩⟩
  | @evicted i line t l e htask hphase hl =>
    refine ⟨i, rfl, t, htask, ?_⟩
    rw [hp.evict_key htask hphase hl] at hgone
    obtain ⟨rfl, hline⟩ : key = t.key ∧ p.lineOf? slot = some line := by
      by_contra hne
      exact hgone (List.mem_filter.mpr ⟨hmem, decide_eq_true hne⟩)
    exact ⟨rfl, .inr ⟨line, e, hphase, hline⟩⟩
  | opened => exact absurd (List.mem_append_left _ hmem) hgone
  | _ => exact absurd hmem hgone

/-- It is no slot in which a handshake is going on. -/
theorem Removes.not_establishes {i slot : Nat} {key : Key} (h : p.Removes i key slot)
    (hg : p.Guarded) (j : Nat) (key' : Key) : ¬ p.Establishes j slot key' := by
  intro hj
  have hguards := hg.establishes hj
  obtain ⟨t, ht, -, ⟨-, e, hphase⟩ | ⟨line, e, -, hline⟩⟩ := h
  · -- the task whose handshake failed has the turn there, and it is past its handshake
    have hown := hg.guards i t slot ht (by rw [hphase]; rfl)
    obtain rfl := hown.unique hguards
    obtain ⟨t', ht', -, establishment, hphase'⟩ := hj
    obtain rfl := Option.some.inj (ht.symm.trans ht')
    exact nomatch hphase.symm.trans hphase'
  · exact nomatch hguards.lineOf?_eq.symm.trans hline

/-! ## Who has a line -/

/-- A task has a line, uses it, or has ended with it. -/
def Has (p : Pool ρ) (line i : Nat) : Prop :=
  ∃ phase, p.phase? i = some phase ∧ phase.Has line

/-- Nobody comes to a line that no slot in the map has, unless by waiting for it. -/
theorem Transition.has_before {m : Move} {line : Nat} (hcut : p.Cut line)
    (h : Transition S client p m q) {i : Nat} (hi : q.Has line i) :
    p.Has line i ∨ p.Awaits line i := by
  obtain ⟨phase, hphase, hhas⟩ := hi
  by_cases hmover : i = m.mover p
  case neg =>
    rw [phase?, h.tasks hmover] at hphase
    exact .inl ⟨phase, hphase, hhas⟩
  subst hmover
  obtain ⟨t, ht, rfl⟩ := Option.map_eq_some_iff.mp hphase
  have before : ∀ {t' : Task} {phase : Phase}, p.tasks[m.mover p]? = some t' →
      t'.phase = phase → phase.Has line → p.Has line (m.mover p) :=
    fun ht' hphase' h => ⟨_, Option.map_eq_some_iff.mpr ⟨_, ht', hphase'⟩, h⟩
  cases h with
  | idle => exact .inl ⟨t.phase, hphase, hhas⟩
  | submitted hnew =>
    obtain h | ⟨e, h⟩ := phase_of_submitted hnew ht
    · rw [h] at hhas
      exact hhas.elim
    · rw [h] at hhas
      exact hhas.elim
  | found htask _ hlookup hline =>
    obtain rfl := eq_of_setPhase htask ht
    obtain rfl := hhas
    exact absurd hline (hcut.gone _ _ (mem_of_lookup hlookup))
  | handed htask hqueued hs hline =>
    obtain rfl := eq_of_setPhase htask ht
    obtain rfl := hhas
    refine .inr ⟨_, Option.map_eq_some_iff.mpr ⟨_, htask, hqueued⟩, ?_⟩
    exact Option.bind_eq_some_iff.mpr ⟨_, hs, hline⟩
  | joinedLine htask hbefore | written htask hbefore | sent htask hbefore | unsent htask hbefore
  | lost htask hbefore =>
    obtain rfl := eq_of_setPhase htask ht
    exact .inl (before htask hbefore hhas)
  | established htask =>
    obtain rfl := eq_of_setPhase htask ht
    obtain rfl := hhas
    exact absurd hcut.known (Nat.lt_irrefl _)
  | @received _ _ _ _ _ _ _ _ _ _ _ result htask _ _ _ _ _ hline =>
    obtain rfl := eq_of_setPhase htask ht
    obtain e | (line' | response) := result
    · exact hhas.elim
    · exact absurd rfl (hline line')
    · exact hhas.elim
  | joined htask | opened htask | began htask | unstarted htask | restarted htask | cleared htask
  | unwritten htask | evicted htask | continued htask | broken htask | leftSlot htask
  | leftLine htask | left htask =>
    obtain rfl := eq_of_setPhase htask ht
    exact hhas.elim

/-! ## Failed calls -/

/-- A task ends with an error that is not about a message because its handshake or its exchange
failed, or it enters without an endpoint. -/
theorem Transition.failed {m : Move} (h : Transition S client p m q) {i : Nat} {e : ClientError}
    (hcodec : ∀ fault, e ≠ .codec fault) (hbefore : p.phase? i ≠ some (.finished (.error e)))
    (hafter : q.phase? i = some (.finished (.error e))) :
    p.phase? i = none ∨ (∃ slot, p.phase? i = some (.failing slot e)) ∨
      m = .advance i ∧ ∃ line, p.phase? i = some (.evicting line e) := by
  by_cases hi : i = m.mover p
  case neg =>
    rw [phase?, h.tasks hi] at hafter
    exact absurd hafter hbefore
  subst hi
  obtain ⟨t, ht, hphase⟩ := Option.map_eq_some_iff.mp hafter
  cases h with
  | idle => exact absurd hafter hbefore
  | submitted => exact .inl (Option.map_eq_none_iff.mpr (List.getElem?_eq_none (Nat.le_refl _)))
  | cleared htask hfailing =>
    obtain rfl := eq_of_setPhase htask ht
    obtain rfl := Except.error.inj (Phase.finished.inj hphase)
    exact .inr (.inl ⟨_, Option.map_eq_some_iff.mpr ⟨_, htask, hfailing⟩⟩)
  | unwritten htask =>
    obtain rfl := eq_of_setPhase htask ht
    exact absurd (Except.error.inj (Phase.finished.inj hphase)).symm (hcodec _)
  | evicted htask hevicting =>
    obtain rfl := eq_of_setPhase htask ht
    obtain rfl := Except.error.inj (Phase.finished.inj hphase)
    exact .inr (.inr ⟨rfl, _, Option.map_eq_some_iff.mpr ⟨_, htask, hevicting⟩⟩)
  | received htask _ _ _ _ _ _ herror =>
    obtain rfl := eq_of_setPhase htask ht
    obtain ⟨fault, rfl⟩ := herror e (Phase.finished.inj hphase)
    exact absurd rfl (hcodec fault)
  | found htask | joined htask | opened htask | handed htask | began htask | unstarted htask
  | restarted htask | joinedLine htask | written htask | sent htask | unsent htask
  | continued htask | established htask | broken htask | lost htask | leftSlot htask
  | leftLine htask | left htask =>
    obtain rfl := eq_of_setPhase htask ht
    cases hphase

/-! ## All together -/

section Moments

variable {g : ρ} {moves : List Move} {line k n : Nat}

/-- Whoever has a line that was cut off had it then, or waited for it. -/
theorem has_before {i : Nat} (hkn : k ≤ n) (hcut : (after S client g moves k).Cut line)
    (hi : (after S client g moves n).Has line i) :
    (after S client g moves k).Has line i ∨ (after S client g moves k).Awaits line i := by
  induction hkn with
  | refl => exact .inl hi
  | @step n hkn ih =>
    obtain ⟨m, -, h⟩ | h := after_transition S client g moves n
    · obtain hhas | hawaits := h.has_before (cut_after hkn hcut) hi
      · exact ih hhas
      · exact .inr (awaits_before hkn hcut hawaits)
    · exact ih (h ▸ hi)

/-- Whoever looks for a line when it was cut off, or comes later, never has it. -/
theorem not_has {i : Nat} (hkn : k ≤ n) (hcut : (after S client g moves k).Cut line)
    (hi : ∀ phase, (after S client g moves k).phase? i = some phase → phase = .seeking) :
    ¬ (after S client g moves n).Has line i := by
  intro hhas
  obtain ⟨phase, hphase, h⟩ | ⟨phase, hphase, h⟩ := has_before hkn hcut hhas
  · rw [hi phase hphase] at h
    exact h
  · rw [hi phase hphase] at h
    exact h

end Moments

/-- In every run, whatever the network does and whoever is given up: an entry leaves the map only by
a step of a task of the same key, whose handshake failed in that very slot, or whose exchange failed
on that very line; a slot in which a handshake is going on stays. When a task ends with an error
that is not about a message, it has had no line, or its line is out of the map from then on, and
nobody ever has it who has not found a slot by then. -/
theorem removal (S : Suite ρ) (client : Client τ) (g : ρ) (moves : List Move) (k : Nat) :
    (∀ key slot, (key, slot) ∈ (after S client g moves k).entries →
      (key, slot) ∉ (after S client g moves (k + 1)).entries →
      (∃ i, moves[k]? = some (.advance i) ∧ (after S client g moves k).Removes i key slot) ∧
      ∀ j key', ¬ (after S client g moves k).Establishes j slot key') ∧
    ∀ i e, (∀ fault, e ≠ .codec fault) →
      (after S client g moves k).phase? i ≠ some (.finished (.error e)) →
      (after S client g moves (k + 1)).phase? i = some (.finished (.error e)) →
      (after S client g moves k).phase? i = none ∨
      (∃ slot, (after S client g moves k).phase? i = some (.failing slot e)) ∨
      ∃ line, (after S client g moves k).phase? i = some (.evicting line e) ∧
        ∀ n, k < n → (after S client g moves n).Cut line ∧
          ∀ j, (∀ phase, (after S client g moves (k + 1)).phase? j = some phase →
            phase = .seeking) → ¬ (after S client g moves n).Has line j := by
  have hguarded := after_guarded S client g moves k
  obtain ⟨slotKeys, lineKeys, howned⟩ := after_owned S client g moves k
  refine ⟨?removed, ?failed⟩
  case removed =>
    intro key slot hmem hgone
    obtain ⟨m, hm, h⟩ | h := after_transition S client g moves k
    · obtain ⟨i, rfl, hremoves⟩ := h.removes hguarded howned hmem hgone
      exact ⟨⟨i, hm, hremoves⟩, hremoves.not_establishes hguarded⟩
    · exact absurd (h ▸ hmem) hgone
  case failed =>
    intro i e hcodec hbefore hafter
    obtain ⟨m, hm, h⟩ | h := after_transition S client g moves k
    · refine (h.failed hcodec hbefore hafter).imp_right (Or.imp_right ?_)
      rintro ⟨rfl, line, hevicting⟩
      have hcut := cut_of_evicting S client howned hevicting
      rw [← after_succ hm] at hcut
      exact ⟨line, hevicting, fun n hkn =>
        ⟨cut_after hkn hcut, fun j hj => not_has hkn hcut hj⟩⟩
    · exact absurd (h ▸ hafter) hbefore

end Pool

end SealedTunnel
