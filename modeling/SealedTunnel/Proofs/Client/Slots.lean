import SealedTunnel.Proofs.Client.Lines

/-!
# What a move means for the slots

A handshake is done in a slot, by the task whose turn it is there, and only while the slot stands
in the map under the task's key.

* `SlotChange` — what a move can do to the slots and the map; `Pool.Transition.slotChange`.
* `Pool.Guards` — a task has the turn in an empty slot that stands under its key.
* `Pool.Guarded` — the invariant: so does every task that does a handshake; `Pool.run_guarded`.
* `Pool.Dead` — a slot that is gone without a line never gets one.
-/

namespace SealedTunnel

/-- The slot in which a task in this phase does a handshake, or did one that failed. -/
def Phase.handshake? : Phase → Option Nat
  | .establishing slot _ | .failing slot _ => some slot
  | _ => none

namespace Pool

variable {ρ τ : Type} {S : Suite ρ} {client : Client τ} {p q : Pool ρ}

/-! ## The invariant -/

/-- A task has the turn in a slot without a line, which stands in the map under a key. -/
structure Guards (p : Pool ρ) (i slot : Nat) (key : Key) : Prop where
  /-- the slot stands under the key -/
  mapped : p.entries.lookup key = some slot
  /-- it has no line yet, and the task has the turn -/
  empty : ∃ s, p.slots[slot]? = some s ∧ s.line = none ∧ s.turn.holder = some i

/-- Tasks that do handshakes do them in slots of their own. -/
structure Guarded (p : Pool ρ) : Prop where
  /-- the slots in the map are known -/
  known : ∀ key slot, (key, slot) ∈ p.entries → slot < p.slots.length
  /-- a slot stands under one key -/
  once : ∀ key key' slot, (key, slot) ∈ p.entries → (key', slot) ∈ p.entries → key' = key
  /-- a task that does a handshake guards its slot -/
  guards : ∀ i t slot, p.tasks[i]? = some t → t.phase.handshake? = some slot →
    p.Guards i slot t.key

/-- Only one task guards a slot. -/
theorem Guards.unique {i j slot : Nat} {key key' : Key} (hi : p.Guards i slot key)
    (hj : p.Guards j slot key') : i = j := by
  obtain ⟨s, hs, -, hholder⟩ := hi.empty
  obtain ⟨s', hs', -, hholder'⟩ := hj.empty
  obtain rfl := Option.some.inj (hs.symm.trans hs')
  exact Option.some.inj (hholder.symm.trans hholder')

theorem Guards.lineOf?_eq {i slot : Nat} {key : Key} (h : p.Guards i slot key) :
    p.lineOf? slot = none := by
  obtain ⟨s, hs, hline, -⟩ := h.empty
  rw [lineOf?, hs]
  exact hline

theorem empty_guarded (g : ρ) : Guarded (empty g) where
  known := fun _ _ h => absurd h List.not_mem_nil
  once := fun _ _ _ h => absurd h List.not_mem_nil
  guards := fun _ _ _ h => nomatch h

/-! ## Changes -/

/-- What a move of task `i` can do to the slots and the map. -/
inductive SlotChange (p q : Pool ρ) (i : Nat) : Prop where
  /-- nothing -/
  | quiet : q.entries = p.entries → q.slots = p.slots → SlotChange p q i
  /-- the turn in a slot changes, and nobody else loses it -/
  | turned {slot : Nat} {f : Turn → Turn} : q.entries = p.entries →
    q.slots = (p.turnSlot slot f).slots →
    (∀ s, p.slots[slot]? = some s → ∀ j ≠ i, s.turn.holder = some j →
      (f s.turn).holder = some j) → SlotChange p q i
  /-- a slot is opened for a key that has none -/
  | opened {key : Key} {s : Slot} : p.entries.lookup key = none → s.line = none →
    q.entries = p.entries ++ [(key, p.slots.length)] → q.slots = p.slots ++ [s] → SlotChange p q i
  /-- the task clears its slot away -/
  | cleared {key : Key} {slot : Nat} : p.Guards i slot key →
    q.entries = (p.dropSlot key slot).entries → q.slots = (p.turnSlot slot Turn.release).slots →
    SlotChange p q i
  /-- a slot with a line is evicted -/
  | evicted {key : Key} {line : Nat} : q.entries = (p.evict key line).entries →
    q.slots = p.slots → SlotChange p q i
  /-- the task puts a line into its slot -/
  | settled {key : Key} {slot line : Nat} : p.Guards i slot key → q.entries = p.entries →
    q.slots = (p.updateSlot slot fun _ => { turn := .free, line := some line }).slots →
    SlotChange p q i

/-- The task that a move is about. -/
def Move.mover (p : Pool ρ) : Move → Nat
  | .submit .. => p.tasks.length
  | .advance i | .deliver i .. | .cancel i => i

/-- Who gives up a turn takes it from nobody else. -/
theorem release_keeps {s : Slot} {i : Nat} (h : s.turn.holder = some i) :
    ∀ j ≠ i, s.turn.holder = some j → s.turn.release.holder = some j :=
  fun _ hj hholder => absurd (Option.some.inj (hholder.symm.trans h)) hj

/-- Every transition does one of six things to the slots. -/
theorem Transition.slotChange {m : Move} (hp : p.Guarded) (h : Transition S client p m q) :
    SlotChange p q (m.mover p) := by
  cases h with
  | @joined i =>
    exact .turned (f := fun t => t.ask i) rfl rfl fun s _ j _ hholder => Turn.holder_ask hholder i
  | opened htask hphase hlookup => exact .opened hlookup rfl rfl rfl
  | restarted htask hphase hs hline hholder =>
    refine .turned rfl rfl fun s' hs' => ?_
    obtain rfl := Option.some.inj (hs.symm.trans hs')
    exact release_keeps hholder
  | cleared htask hphase =>
    exact .cleared (hp.guards _ _ _ htask (by rw [hphase]; rfl)) rfl rfl
  | evicted => exact .evicted rfl rfl
  | established htask hphase =>
    exact .settled (hp.guards _ _ _ htask (by rw [hphase]; rfl)) rfl rfl
  | @leftSlot i =>
    exact .turned (f := fun t => t.leave i) rfl rfl fun s _ j hj hholder =>
      Turn.holder_leave hholder (Ne.symm hj)
  | _ => exact .quiet rfl rfl

/-! ### The map -/

/-- A key keeps its slot if nothing else is taken out of the map. -/
theorem lookup_filter {entries : List (Key × Nat)} {key : Key} {slot : Nat}
    (h : entries.lookup key = some slot) {f : Key × Nat → Bool} (hf : f (key, slot) = true) :
    (entries.filter f).lookup key = some slot := by
  obtain ⟨before, after, rfl, hbefore⟩ := List.lookup_eq_some_iff.mp h
  refine List.lookup_eq_some_iff.mpr ⟨before.filter f, after.filter f, ?_, ?_⟩
  · rw [List.filter_append, List.filter_cons_of_pos hf]
  · exact fun x hx => hbefore x (List.mem_filter.mp hx).1

theorem mem_of_lookup {entries : List (Key × Nat)} {key : Key} {slot : Nat}
    (h : entries.lookup key = some slot) : (key, slot) ∈ entries := by
  obtain ⟨before, after, rfl, -⟩ := List.lookup_eq_some_iff.mp h
  exact List.mem_append_right before List.mem_cons_self

/-! ### Slots -/

theorem getElem?_updateSlot {slot : Nat} {s : Slot} (hs : p.slots[slot]? = some s) (slot' : Nat)
    (f : Slot → Slot) :
    (p.updateSlot slot' f).slots[slot]? = some (if slot' = slot then f s else s) := by
  simp only [updateSlot]
  rw [List.getElem?_modify, hs]
  split <;> rfl

theorem lineOf?_congr (h : q.slots = p.slots) (slot : Nat) : q.lineOf? slot = p.lineOf? slot := by
  rw [lineOf?, h, lineOf?]

theorem length_updateSlot (slot : Nat) (f : Slot → Slot) :
    (p.updateSlot slot f).slots.length = p.slots.length := List.length_modify ..

/-- Whoever guards a slot goes on guarding it while somebody else moves. -/
theorem SlotChange.guards {i j slot : Nat} {key : Key} (h : SlotChange p q i) (hj : j ≠ i)
    (hguards : p.Guards j slot key) : q.Guards j slot key := by
  obtain ⟨s, hs, hline, hholder⟩ := hguards.empty
  have hmapped := hguards.mapped
  cases h with
  | quiet hentries hslots => exact ⟨hentries ▸ hmapped, s, hslots ▸ hs, hline, hholder⟩
  | @turned slot' f hentries hslots hkeep =>
    refine ⟨hentries ▸ hmapped, _, hslots ▸ getElem?_updateSlot hs slot' _, ?_, ?_⟩
    · split
      · exact hline
      · exact hline
    · split
      · rename_i hslot
        exact hkeep s (hslot ▸ hs) j hj hholder
      · exact hholder
  | opened hnone _ hentries hslots =>
    refine ⟨?_, s, ?_, hline, hholder⟩
    · rw [hentries, List.lookup_append, hmapped]
      rfl
    · obtain ⟨hlt, -⟩ := List.getElem?_eq_some_iff.mp hs
      rw [hslots, List.getElem?_append_left hlt, hs]
  | @cleared key' slot' hown hentries hslots =>
    -- the slot that is cleared away is another one
    have hne : slot' ≠ slot := by
      rintro rfl
      exact hj (hguards.unique hown)
    refine ⟨?_, s, ?_, hline, hholder⟩
    · rw [hentries]
      refine lookup_filter hmapped ?_
      simp [Ne.symm hne]
    · rw [hslots, turnSlot, getElem?_updateSlot hs, if_neg hne]
  | @evicted key' line hentries hslots =>
    refine ⟨?_, s, hslots ▸ hs, hline, hholder⟩
    rw [hentries]
    refine lookup_filter hmapped ?_
    simp [hguards.lineOf?_eq]
  | @settled key' slot' line hown hentries hslots =>
    have hne : slot' ≠ slot := by
      rintro rfl
      exact hj (hguards.unique hown)
    refine ⟨hentries ▸ hmapped, s, ?_, hline, hholder⟩
    rw [hslots, getElem?_updateSlot hs, if_neg hne]

/-- A move takes slots out of the map, or opens one. -/
theorem SlotChange.entries {i : Nat} (h : SlotChange p q i) :
    (∀ x ∈ q.entries, x ∈ p.entries) ∧ q.slots.length = p.slots.length ∨
      ∃ key, q.entries = p.entries ++ [(key, p.slots.length)] ∧
        q.slots.length = p.slots.length + 1 := by
  cases h with
  | quiet hentries hslots => exact .inl ⟨fun x hx => hentries ▸ hx, congrArg _ hslots⟩
  | turned hentries hslots =>
    exact .inl ⟨fun x hx => hentries ▸ hx, (congrArg _ hslots).trans (length_updateSlot ..)⟩
  | opened _ _ hentries hslots =>
    refine .inr ⟨_, hentries, ?_⟩
    rw [hslots, List.length_append, List.length_singleton]
  | cleared _ hentries hslots =>
    refine .inl ⟨fun x hx => ?_, (congrArg _ hslots).trans (length_updateSlot ..)⟩
    rw [hentries] at hx
    exact (List.mem_filter.mp hx).1
  | evicted hentries hslots =>
    refine .inl ⟨fun x hx => ?_, congrArg _ hslots⟩
    rw [hentries] at hx
    exact (List.mem_filter.mp hx).1
  | settled _ hentries hslots =>
    exact .inl ⟨fun x hx => hentries ▸ hx, (congrArg _ hslots).trans (length_updateSlot ..)⟩

/-- A new turn leaves the line in a slot as it is. -/
theorem lineOf?_turnSlot (slot' : Nat) (f : Turn → Turn) (slot : Nat) :
    (p.turnSlot slot' f).lineOf? slot = p.lineOf? slot := by
  simp only [lineOf?, turnSlot, updateSlot]
  rw [List.getElem?_modify]
  cases p.slots[slot]? with
  | none => rfl
  | some s =>
    split
    · rfl
    · rfl

/-- What is in a slot changes only for the task that guards it. -/
theorem SlotChange.lineOf? {i slot : Nat} (h : SlotChange p q i) (hslot : slot < p.slots.length) :
    q.lineOf? slot = p.lineOf? slot ∨ ∃ key, p.Guards i slot key := by
  have hs := List.getElem?_eq_getElem hslot
  cases h with
  | quiet _ hslots => exact .inl (lineOf?_congr hslots slot)
  | turned _ hslots => exact .inl ((lineOf?_congr hslots slot).trans (lineOf?_turnSlot ..))
  | opened _ _ _ hslots =>
    exact .inl (by rw [Pool.lineOf?, hslots, List.getElem?_append_left hslot, Pool.lineOf?])
  | cleared _ _ hslots => exact .inl ((lineOf?_congr hslots slot).trans (lineOf?_turnSlot ..))
  | evicted _ hslots => exact .inl (lineOf?_congr hslots slot)
  | @settled key slot' line hown _ hslots =>
    by_cases hne : slot' = slot
    · exact .inr ⟨key, hne ▸ hown⟩
    · refine .inl ?_
      rw [Pool.lineOf?, hslots, getElem?_updateSlot hs, if_neg hne, Pool.lineOf?, hs]

/-! ## Steps and runs -/

/-- A task other than the one that moves stays as it is. -/
theorem Transition.tasks {m : Move} (h : Transition S client p m q) {j : Nat}
    (hj : j ≠ m.mover p) : q.tasks[j]? = p.tasks[j]? := by
  have modified : ∀ i (f : Task → Task), j ≠ i → (p.tasks.modify i f)[j]? = p.tasks[j]? := by
    intro i f hi
    rw [List.getElem?_modify]
    simp [Ne.symm hi]
  cases h with
  | idle => rfl
  | @submitted _ _ _ task _ =>
    have hj : j ≠ p.tasks.length := hj
    rcases Nat.lt_or_ge j p.tasks.length with hlt | hge
    · exact List.getElem?_append_left hlt
    · rw [List.getElem?_eq_none (by rw [List.length_append, List.length_singleton]; omega),
        List.getElem?_eq_none hge]
  | _ => exact modified _ _ hj

/-- The task that moves stays the same but for its phase. -/
theorem getElem?_setPhase {i : Nat} {task : Task} (h : p.tasks[i]? = some task) (phase : Phase) :
    (p.setPhase i phase).tasks[i]? = some { task with phase } := by
  simp only [setPhase]
  rw [List.getElem?_modify, h]
  simp

theorem eq_of_setPhase {i : Nat} {task t : Task} {phase : Phase} (h : p.tasks[i]? = some task)
    (ht : (p.setPhase i phase).tasks[i]? = some t) : t = { task with phase } :=
  (Option.some.inj ((getElem?_setPhase h phase).symm.trans ht)).symm

/-- A new task is looking for its slot, or has ended already. -/
theorem phase_of_submitted {task t : Task} (hphase : task.phase = .seeking ∨
    ∃ e, task.phase = .finished (.error e)) (ht : (p.tasks ++ [task])[p.tasks.length]? = some t) :
    t.phase = .seeking ∨ ∃ e, t.phase = .finished (.error e) := by
  rw [List.getElem?_concat_length] at ht
  exact Option.some.inj ht ▸ hphase

/-- A task that does a handshake after its move guards its slot. -/
theorem Transition.guards {m : Move} (hp : p.Guarded) (h : Transition S client p m q) {t : Task}
    {slot : Nat} (ht : q.tasks[m.mover p]? = some t) (hslot : t.phase.handshake? = some slot) :
    q.Guards (m.mover p) slot t.key := by
  cases h with
  | idle => exact hp.guards _ _ _ ht hslot
  | submitted hphase =>
    obtain h | ⟨e, h⟩ := phase_of_submitted hphase ht <;> exact nomatch h ▸ hslot
  | began htask hphase hs hline hholder hlookup =>
    obtain rfl := eq_of_setPhase (p := { p with generator := _ }) htask ht
    obtain rfl := Option.some.inj hslot
    exact ⟨hlookup, _, hs, hline, hholder⟩
  | unstarted htask hphase hs hline hholder hlookup =>
    obtain rfl := eq_of_setPhase (p := { p with generator := _ }) htask ht
    obtain rfl := Option.some.inj hslot
    exact ⟨hlookup, _, hs, hline, hholder⟩
  | continued htask hphase =>
    obtain rfl := eq_of_setPhase (p := { p with generator := _ }) htask ht
    obtain rfl := Option.some.inj hslot
    obtain ⟨hmapped, hempty⟩ := hp.guards _ _ _ htask (by rw [hphase]; rfl)
    exact ⟨hmapped, hempty⟩
  | broken htask hphase =>
    obtain rfl := eq_of_setPhase (p := { p with generator := _ }) htask ht
    obtain rfl := Option.some.inj hslot
    obtain ⟨hmapped, hempty⟩ := hp.guards _ _ _ htask (by rw [hphase]; rfl)
    exact ⟨hmapped, hempty⟩
  | found htask | joined htask | opened htask | handed htask | restarted htask | cleared htask
  | joinedLine htask | unwritten htask | written htask | sent htask | unsent htask
  | evicted htask | established htask | received htask | lost htask | leftSlot htask
  | leftLine htask | left htask =>
    -- there is no handshake in the phases that these end in
    obtain rfl := eq_of_setPhase htask ht
    exact nomatch hslot

theorem Guarded.step {m : Move} (hp : p.Guarded) (h : Transition S client p m q) : q.Guarded := by
  have hchange := h.slotChange hp
  refine ⟨?_, ?_, ?_⟩
  · intro key slot hmem
    obtain ⟨hsub, hlength⟩ | ⟨key', hentries, hlength⟩ := hchange.entries
    · exact hlength ▸ hp.known key slot (hsub _ hmem)
    · rw [hlength]
      rw [hentries] at hmem
      obtain hmem | hmem := List.mem_append.mp hmem
      · exact Nat.lt_succ_of_lt (hp.known key slot hmem)
      · obtain ⟨-, rfl⟩ := Prod.mk.inj (List.mem_singleton.mp hmem)
        exact Nat.lt_succ_self _
  · intro key key' slot hmem hmem'
    obtain ⟨hsub, -⟩ | ⟨key'', hentries, -⟩ := hchange.entries
    · exact hp.once key key' slot (hsub _ hmem) (hsub _ hmem')
    · rw [hentries] at hmem hmem'
      -- a new slot is none of those in the map
      obtain hold | hnew := List.mem_append.mp hmem <;>
        obtain hold' | hnew' := List.mem_append.mp hmem'
      · exact hp.once key key' slot hold hold'
      · obtain ⟨-, rfl⟩ := Prod.mk.inj (List.mem_singleton.mp hnew')
        exact absurd (hp.known _ _ hold) (Nat.lt_irrefl _)
      · obtain ⟨-, rfl⟩ := Prod.mk.inj (List.mem_singleton.mp hnew)
        exact absurd (hp.known _ _ hold') (Nat.lt_irrefl _)
      · obtain ⟨rfl, -⟩ := Prod.mk.inj (List.mem_singleton.mp hnew)
        exact (Prod.mk.inj (List.mem_singleton.mp hnew')).1
  · intro j t slot ht hslot
    by_cases hj : j = m.mover p
    · subst hj
      exact h.guards hp ht hslot
    · rw [h.tasks hj] at ht
      exact hchange.guards hj (hp.guards j t slot ht hslot)

variable (S client) in
/-- In every run, tasks that do handshakes guard their slots. -/
theorem run_guarded (hp : p.Guarded) (moves : List Move) : (run S client p moves).Guarded := by
  induction moves generalizing p with
  | nil => exact hp
  | cons m moves ih => exact ih (hp.step (step_transition S client p m))

/-! ## Lines and dead slots -/

theorem lt_of_lineOf? {slot line : Nat} (h : p.lineOf? slot = some line) :
    slot < p.slots.length := by
  obtain ⟨s, hs, -⟩ := Option.bind_eq_some_iff.mp h
  exact (List.getElem?_eq_some_iff.mp hs).1

/-- A slot keeps its line. -/
theorem SlotChange.lineOf?_eq {i slot line : Nat} (h : SlotChange p q i)
    (hline : p.lineOf? slot = some line) : q.lineOf? slot = some line := by
  obtain heq | ⟨key, hguards⟩ := h.lineOf? (lt_of_lineOf? hline)
  · exact heq.trans hline
  · exact nomatch hguards.lineOf?_eq.symm.trans hline

/-- A slot that is in the map no more, and has no line. -/
structure Dead (p : Pool ρ) (slot : Nat) : Prop where
  /-- there was such a slot -/
  known : slot < p.slots.length
  /-- it has no line -/
  empty : p.lineOf? slot = none
  /-- it is gone -/
  gone : ∀ key, (key, slot) ∉ p.entries

/-- It stays so. -/
theorem SlotChange.dead {i slot : Nat} (h : SlotChange p q i) (hdead : p.Dead slot) :
    q.Dead slot := by
  obtain ⟨hknown, hempty, hgone⟩ := hdead
  have hline : q.lineOf? slot = none := by
    obtain heq | ⟨key, hguards⟩ := h.lineOf? hknown
    · exact heq.trans hempty
    · exact absurd (mem_of_lookup hguards.mapped) (hgone key)
  obtain ⟨hsub, hlength⟩ | ⟨key', hentries, hlength⟩ := h.entries
  · exact ⟨hlength ▸ hknown, hline, fun key hmem => hgone key (hsub _ hmem)⟩
  · refine ⟨by omega, hline, fun key hmem => ?_⟩
    rw [hentries] at hmem
    obtain hmem | hmem := List.mem_append.mp hmem
    · exact hgone key hmem
    · obtain ⟨-, rfl⟩ := Prod.mk.inj (List.mem_singleton.mp hmem)
      exact Nat.lt_irrefl _ hknown

/-- A key loses its slot by eviction, or the slot is dead. -/
theorem SlotChange.lookup {i slot : Nat} {key : Key} (hp : p.Guarded) (h : SlotChange p q i)
    (hlookup : p.entries.lookup key = some slot) :
    q.entries.lookup key = some slot ∨ p.lineOf? slot ≠ none ∨ q.Dead slot := by
  have hmem := mem_of_lookup hlookup
  have hknown := hp.known key slot hmem
  by_cases hline : p.lineOf? slot = none
  case neg => exact .inr (.inl hline)
  cases h with
  | quiet hentries => exact .inl (hentries ▸ hlookup)
  | turned hentries => exact .inl (hentries ▸ hlookup)
  | opened _ _ hentries =>
    refine .inl ?_
    rw [hentries, List.lookup_append, hlookup]
    rfl
  | @cleared key' slot' hown hentries hslots =>
    by_cases hne : slot' = slot
    · -- the task's own slot goes, and stands nowhere else
      subst hne
      refine .inr (.inr ⟨?_, ?_, fun key'' hmem'' => ?_⟩)
      · rw [hslots, turnSlot, length_updateSlot]
        exact hknown
      · exact (lineOf?_congr hslots slot').trans ((lineOf?_turnSlot ..).trans hline)
      · rw [hentries] at hmem''
        obtain ⟨hmem'', hkept⟩ := List.mem_filter.mp hmem''
        have hkey := hp.once _ _ _ (mem_of_lookup hown.mapped) hmem''
        simp [hkey] at hkept
    · refine .inl ?_
      rw [hentries]
      refine lookup_filter hlookup ?_
      simp [Ne.symm hne]
  | evicted hentries =>
    refine .inl ?_
    rw [hentries]
    refine lookup_filter hlookup ?_
    simp [hline]
  | settled _ hentries => exact .inl (hentries ▸ hlookup)

end Pool

end SealedTunnel
