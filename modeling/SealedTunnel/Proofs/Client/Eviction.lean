import SealedTunnel.Proofs.Client.Answers
import SealedTunnel.Proofs.Client.Requests
import SealedTunnel.Proofs.Uri.RoundTrip

/-!
# What eviction stops

A task whose exchange failed takes its line out of the map, and nobody finds the line there from
then on. Whoever has it by then, or waits for it, goes on with it.

* `Pool.Owned` — slots and lines are for one key each, and so are the tasks that stand there;
  `Pool.run_owned`.
* `Pool.Owned.mem_entries_evict` — what an eviction takes out; `Pool.step_evicting`.
* `Pool.Cut` — no slot in the map leads to a line; `Pool.cut_of_evicting`.
* `Pool.Awaits`, `Pool.Seals` — a task will have a line without looking for it, or has it; a task
  makes a frame there.
* `Pool.fail_stop` — after an eviction, frames are made by tasks only that had the line by then.
* `Pool.not_fail_stop` — those may make them, also right after an exchange failed.
-/

namespace SealedTunnel

variable {ρ τ : Type} {S : Suite ρ} {client : Client τ}

/-! ## Keys -/

/-- A key is for the root of a host. -/
def Rooted (key : Key) : Prop :=
  ∃ endpoint root, destination endpoint = .ok root ∧ key.1 = root.text

/-- A channel for such a key is bound to that root. -/
theorem Handshake.Completed.text_eq {policy : TrustPolicy} {environment : Environment} {key : Key}
    {as : List Arrival} {rs : List Outer.Request} {connection : Connection}
    {session : Session} (h : Completed S policy environment key.1 as rs connection session)
    (hkey : Rooted key) : connection.endpoint.text = key.1 := by
  obtain ⟨b, -, -, -, -, -, -⟩ := h
  obtain ⟨endpoint, root, hroot, hkey⟩ := hkey
  have hlocated : destination root.text = .ok (b.uri "/") := hkey ▸ b.located
  exact (congrArg Uri.text (destination_text hroot hlocated)).trans hkey.symm

/-- A task in this phase stands at a slot or on a line of its key, given the keys of all slots and
all lines. -/
def Phase.Belongs (slotKeys lineKeys : List Key) (key : Key) : Phase → Prop
  | .seeking => Rooted key
  | .queued slot | .establishing slot _ | .failing slot _ => slotKeys[slot]? = some key
  | .connected line | .ready line _ | .exchanging line _ | .evicting line _ =>
    lineKeys[line]? = some key
  | .finished _ | .cancelled => True

/-- What an element of a list is stays when the list grows. -/
theorem getElem?_append_some {α : Type} {as : List α} {i : Nat} {a : α} (h : as[i]? = some a)
    (bs : List α) : (as ++ bs)[i]? = some a :=
  List.getElem?_append_left (List.getElem?_eq_some_iff.mp h).1 ▸ h

theorem Phase.Belongs.append {slotKeys lineKeys : List Key} {key : Key} {phase : Phase}
    (h : phase.Belongs slotKeys lineKeys key) (slotKeys' lineKeys' : List Key) :
    phase.Belongs (slotKeys ++ slotKeys') (lineKeys ++ lineKeys') key := by
  cases phase with
  | seeking => exact h
  | queued | establishing | failing => exact getElem?_append_some h slotKeys'
  | connected | ready | exchanging | evicting => exact getElem?_append_some h lineKeys'
  | finished | cancelled => exact trivial

namespace Pool

variable {p q : Pool ρ} {slotKeys lineKeys : List Key}

/-- All slots and all lines there ever were are for these keys. -/
structure Owned (p : Pool ρ) (slotKeys lineKeys : List Key) : Prop where
  /-- there is a key for each slot -/
  slots : slotKeys.length = p.slots.length
  /-- there is a key for each line -/
  lines : lineKeys.length = p.lines.length
  /-- the keys are for roots of hosts -/
  rooted : ∀ key ∈ slotKeys, Rooted key
  /-- a slot stands in the map under its key -/
  entries : ∀ key slot, (key, slot) ∈ p.entries → slotKeys[slot]? = some key
  /-- the line in a slot is for the same key -/
  settled : ∀ slot line, p.lineOf? slot = some line → lineKeys[line]? = slotKeys[slot]?
  /-- a line leads to the host of its key -/
  located : ∀ (line : Nat) (l : Line), p.lines[line]? = some l →
    ∃ key, lineKeys[line]? = some key ∧ l.connection.endpoint.text = key.1
  /-- so are the tasks that stand there -/
  tasks : ∀ (i : Nat) (t : Task), p.tasks[i]? = some t → t.phase.Belongs slotKeys lineKeys t.key

namespace Owned

theorem empty (g : ρ) : (Pool.empty g).Owned [] [] where
  slots := rfl
  lines := rfl
  rooted := by simp
  entries := by simp [Pool.empty]
  settled := by simp [Pool.empty, lineOf?]
  located := by simp [Pool.empty]
  tasks := by simp [Pool.empty]

/-- Whoever stands in a phase belongs there. -/
theorem belongs (hp : p.Owned slotKeys lineKeys) {i : Nat} {t : Task} {phase : Phase}
    (ht : p.tasks[i]? = some t) (hphase : t.phase = phase) :
    phase.Belongs slotKeys lineKeys t.key := hphase ▸ hp.tasks i t ht

/-! ### Small changes -/

theorem generator (hp : p.Owned slotKeys lineKeys) (g : ρ) :
    { p with generator := g }.Owned slotKeys lineKeys := { hp with }

theorem setPhase (hp : p.Owned slotKeys lineKeys) {i : Nat} {t : Task} {phase : Phase}
    (ht : p.tasks[i]? = some t) (h : phase.Belongs slotKeys lineKeys t.key) :
    (p.setPhase i phase).Owned slotKeys lineKeys := by
  refine { hp with tasks := fun j t' ht' => ?_ }
  by_cases hj : j = i
  · subst hj
    obtain rfl := eq_of_setPhase ht ht'
    exact h
  · have hsame : (p.setPhase i phase).tasks[j]? = p.tasks[j]? := by
      simp [Pool.setPhase, Ne.symm hj]
    exact hp.tasks j t' (hsame ▸ ht')

theorem turnSlot (hp : p.Owned slotKeys lineKeys) (slot : Nat) (f : Turn → Turn) :
    (p.turnSlot slot f).Owned slotKeys lineKeys where
  slots := hp.slots.trans (length_updateSlot ..).symm
  lines := hp.lines
  rooted := hp.rooted
  entries := hp.entries
  settled := fun slot' line h => hp.settled slot' line (lineOf?_turnSlot slot f slot' ▸ h)
  located := hp.located
  tasks := hp.tasks

theorem updateLine (hp : p.Owned slotKeys lineKeys) (line : Nat) {f : Line → Line}
    (hf : ∀ l, (f l).connection = l.connection) :
    (p.updateLine line f).Owned slotKeys lineKeys where
  slots := hp.slots
  lines := hp.lines.trans (List.length_modify ..).symm
  rooted := hp.rooted
  entries := hp.entries
  settled := hp.settled
  located := by
    intro line' l' hl'
    have hlt : line' < p.lines.length := by
      simpa [Pool.updateLine] using (List.getElem?_eq_some_iff.mp hl').1
    obtain ⟨key, hkey, htext⟩ := hp.located line' _ (List.getElem?_eq_getElem hlt)
    rw [getElem?_updateLine (List.getElem?_eq_getElem hlt)] at hl'
    obtain rfl := Option.some.inj hl'
    refine ⟨key, hkey, ?_⟩
    split
    · rw [hf]
      exact htext
    · exact htext
  tasks := hp.tasks

theorem turnLine (hp : p.Owned slotKeys lineKeys) (line : Nat) (f : Turn → Turn) :
    (p.turnLine line f).Owned slotKeys lineKeys := hp.updateLine line fun _ => rfl

theorem filter (hp : p.Owned slotKeys lineKeys) (f : Key × Nat → Bool) :
    { p with entries := p.entries.filter f }.Owned slotKeys lineKeys :=
  { hp with entries := fun key slot h => hp.entries key slot (List.mem_filter.mp h).1 }

/-! ### Tasks, slots and lines that are new -/

theorem submit (hp : p.Owned slotKeys lineKeys) (endpoint subject : String) (errand : Errand) :
    (p.submit endpoint subject errand).Owned slotKeys lineKeys := by
  refine { hp with tasks := fun i t ht => ?_ }
  rw [Pool.submit, List.getElem?_append] at ht
  split at ht
  · exact hp.tasks i t ht
  · obtain rfl := List.mem_singleton.mp (List.mem_of_getElem? ht)
    cases hroot : destination endpoint with
    | ok root => exact ⟨endpoint, root, hroot, rfl⟩
    | error e => exact trivial

theorem opened (hp : p.Owned slotKeys lineKeys) {i : Nat} {t : Task} (turn : Turn)
    (ht : p.tasks[i]? = some t) (hphase : t.phase = .seeking) :
    ({ p with
      entries := p.entries ++ [(t.key, p.slots.length)]
      slots := p.slots ++ [{ turn, line := none }] : Pool ρ }.setPhase i
      (.queued p.slots.length)).Owned (slotKeys ++ [t.key]) lineKeys := by
  have hnew : (slotKeys ++ [t.key])[p.slots.length]? = some t.key :=
    hp.slots ▸ List.getElem?_concat_length
  have hrooted : Rooted t.key := hp.belongs ht hphase
  refine Owned.setPhase (t := t) ?_ ht hnew
  constructor
  case slots => simp [hp.slots]
  case lines => exact hp.lines
  case rooted =>
    intro key hkey
    obtain hkey | hkey := List.mem_append.mp hkey
    · exact hp.rooted key hkey
    · obtain rfl := List.mem_singleton.mp hkey
      exact hrooted
  case entries =>
    intro key slot hmem
    obtain hmem | hmem := List.mem_append.mp hmem
    · exact getElem?_append_some (hp.entries key slot hmem) _
    · obtain ⟨rfl, rfl⟩ := Prod.mk.inj (List.mem_singleton.mp hmem)
      exact hnew
  case settled =>
    intro slot line hline
    obtain ⟨s, hs, hline⟩ := Option.bind_eq_some_iff.mp hline
    -- a slot that is new has no line
    have hlt : slot < p.slots.length := by
      by_contra hge
      rw [List.getElem?_append_right (Nat.le_of_not_lt hge)] at hs
      obtain rfl := List.mem_singleton.mp (List.mem_of_getElem? hs)
      exact nomatch hline
    rw [List.getElem?_append_left hlt] at hs
    rw [List.getElem?_append_left (hp.slots ▸ hlt)]
    exact hp.settled slot line (Option.bind_eq_some_iff.mpr ⟨s, hs, hline⟩)
  case located => exact hp.located
  case tasks =>
    intro j t' ht'
    simpa using (hp.tasks j t' ht').append [t.key] []

theorem settle (hp : p.Owned slotKeys lineKeys) {i slot : Nat} {t : Task} {connection : Connection}
    (ht : p.tasks[i]? = some t) (hslot : slotKeys[slot]? = some t.key)
    (htext : connection.endpoint.text = t.key.1) (session : Session) :
    (p.settle i slot connection session).Owned slotKeys (lineKeys ++ [t.key]) := by
  have hnew : (lineKeys ++ [t.key])[p.lines.length]? = some t.key :=
    hp.lines ▸ List.getElem?_concat_length
  refine Owned.setPhase (t := t) ?_ ht hnew
  constructor
  case slots => exact hp.slots.trans (length_updateSlot ..).symm
  case lines => simp [hp.lines, updateSlot]
  case rooted => exact hp.rooted
  case entries => exact hp.entries
  case settled =>
    intro slot' line hline
    obtain ⟨s, hs, hline⟩ := Option.bind_eq_some_iff.mp hline
    have hlt : slot' < p.slots.length := by
      simpa [updateSlot] using (List.getElem?_eq_some_iff.mp hs).1
    have hupdated := getElem?_updateSlot (List.getElem?_eq_getElem hlt) slot
      fun _ => { turn := .free, line := some p.lines.length }
    obtain rfl := Option.some.inj (hs.symm.trans hupdated)
    split at hline
    · rename_i heq
      obtain rfl := Option.some.inj hline
      rw [← heq, hslot]
      exact hnew
    · have hbefore := hp.settled slot' line
        (Option.bind_eq_some_iff.mpr ⟨_, List.getElem?_eq_getElem hlt, hline⟩)
      obtain ⟨key, hkey⟩ : ∃ key, slotKeys[slot']? = some key :=
        ⟨_, List.getElem?_eq_getElem (hp.slots.symm ▸ hlt)⟩
      rw [hkey] at hbefore ⊢
      exact getElem?_append_some hbefore _
  case located =>
    intro line l hl
    have hl : (p.lines ++ [_])[line]? = some l := hl
    rw [List.getElem?_append] at hl
    split at hl
    · obtain ⟨key, hkey, htext⟩ := hp.located line l hl
      exact ⟨key, getElem?_append_some hkey _, htext⟩
    · rename_i hge
      have hlast : line = p.lines.length := by
        have hbound := (List.getElem?_eq_some_iff.mp hl).1
        rw [List.length_singleton] at hbound
        omega
      obtain rfl := List.mem_singleton.mp (List.mem_of_getElem? hl)
      exact ⟨t.key, hlast ▸ hnew, htext⟩
  case tasks =>
    intro j t' ht'
    simpa using (hp.tasks j t' ht').append [] [t.key]

end Owned

/-! ### Steps and runs -/

/-- Slots and lines keep their keys, and new ones have some. -/
theorem Transition.owned {m : Move} (h : Transition S client p m q)
    (hp : p.Owned slotKeys lineKeys) (hjustified : Justified S client p) :
    (∃ slotKeys' lineKeys', q.Owned slotKeys' lineKeys') ∨
      ∃ endpoint subject errand, m = .submit endpoint subject errand := by
  cases h with
  | idle => exact .inl ⟨_, _, hp⟩
  | submitted => exact .inr ⟨_, _, _, rfl⟩
  | @found i slot line t htask hphase hlookup hline =>
    refine .inl ⟨_, _, hp.setPhase htask ?_⟩
    exact (hp.settled slot line hline).trans (hp.entries _ _ (mem_of_lookup hlookup))
  | joined htask hphase hlookup hline =>
    exact .inl ⟨_, _, (hp.turnSlot _ _).setPhase htask (hp.entries _ _ (mem_of_lookup hlookup))⟩
  | opened htask hphase => exact .inl ⟨_, _, hp.opened _ htask hphase⟩
  | @handed i slot line t s htask hphase hs hline =>
    have hbelongs := hp.belongs htask hphase
    have hline := hp.settled slot line (Option.bind_eq_some_iff.mpr ⟨s, hs, hline⟩)
    exact .inl ⟨_, _, hp.setPhase htask (hline.trans hbelongs)⟩
  | began htask hphase =>
    have hbelongs := hp.belongs htask hphase
    exact .inl ⟨_, _, (hp.generator _).setPhase htask hbelongs⟩
  | unstarted htask hphase =>
    have hbelongs := hp.belongs htask hphase
    exact .inl ⟨_, _, (hp.generator _).setPhase htask hbelongs⟩
  | restarted htask hphase =>
    have hbelongs := hp.belongs htask hphase
    exact .inl ⟨_, _, (hp.turnSlot _ _).setPhase htask
      (hp.rooted _ (List.mem_of_getElem? hbelongs))⟩
  | cleared htask => exact .inl ⟨_, _, ((hp.filter _).turnSlot _ _).setPhase htask trivial⟩
  | joinedLine htask => exact .inl ⟨_, _, hp.setPhase htask trivial⟩
  | unwritten htask => exact .inl ⟨_, _, hp.setPhase htask trivial⟩
  | written htask hphase =>
    have hbelongs := hp.belongs htask hphase
    exact .inl ⟨_, _, (hp.turnLine _ _).setPhase htask hbelongs⟩
  | @sent _ _ _ _ _ _ session _ htask hphase =>
    have hbelongs := hp.belongs htask hphase
    exact .inl ⟨_, _, ((hp.generator _).updateLine (f := fun l => { l with session }) _
      fun _ => rfl).setPhase htask hbelongs⟩
  | unsent htask hphase =>
    have hbelongs := hp.belongs htask hphase
    exact .inl ⟨_, _, ((hp.generator _).turnLine _ _).setPhase htask hbelongs⟩
  | evicted htask => exact .inl ⟨_, _, (hp.filter _).setPhase htask trivial⟩
  | continued htask hphase =>
    have hbelongs := hp.belongs htask hphase
    exact .inl ⟨_, _, (hp.generator _).setPhase htask hbelongs⟩
  | @established i slot t e now reply judge connection session g htask hphase hresume =>
    have hbelongs := hp.belongs htask hphase
    obtain ⟨as, rs, hreached⟩ := hjustified.handshakes _ _ _ _ htask hphase
    have hcompleted := Establishment.resume_completed (a := ⟨now, reply, judge⟩) hreached hresume
    have htext := hcompleted.text_eq (hp.rooted _ (List.mem_of_getElem? hbelongs))
    exact .inl ⟨_, _, (hp.generator g).settle htask hbelongs htext session⟩
  | broken htask hphase =>
    have hbelongs := hp.belongs htask hphase
    exact .inl ⟨_, _, (hp.generator _).setPhase htask hbelongs⟩
  | @received _ _ _ _ _ _ _ _ _ _ session _ htask =>
    exact .inl ⟨_, _, ((hp.turnLine _ _).updateLine (f := fun l => { l with session }) _
      fun _ => rfl).setPhase htask trivial⟩
  | lost htask hphase =>
    have hbelongs := hp.belongs htask hphase
    exact .inl ⟨_, _, (hp.turnLine _ _).setPhase htask hbelongs⟩
  | leftSlot htask => exact .inl ⟨_, _, (hp.turnSlot _ _).setPhase htask trivial⟩
  | leftLine htask => exact .inl ⟨_, _, (hp.turnLine _ _).setPhase htask trivial⟩
  | left htask => exact .inl ⟨_, _, hp.setPhase htask trivial⟩

variable (S client) in
/-- In every run, all slots and lines are for keys. -/
theorem run_owned (hp : p.Owned slotKeys lineKeys) (hjustified : Justified S client p)
    (moves : List Move) :
    ∃ slotKeys' lineKeys', (run S client p moves).Owned slotKeys' lineKeys' := by
  induction moves generalizing p slotKeys lineKeys with
  | nil => exact ⟨_, _, hp⟩
  | cons m moves ih =>
    have h := step_transition S client p m
    obtain ⟨_, _, hq⟩ | ⟨endpoint, subject, errand, rfl⟩ := h.owned hp hjustified
    · exact ih hq (hjustified.step h)
    · exact ih (hp.submit endpoint subject errand) (hjustified.step h)

/-! ## Lines out of the map -/

/-- A line comes into a slot only when it is new. -/
theorem Transition.lineOf?_before {m : Move} (h : Transition S client p m q) {slot line : Nat}
    (hknown : line < p.lines.length) (hline : q.lineOf? slot = some line) :
    p.lineOf? slot = some line := by
  cases h with
  | @joined i slot' => exact (lineOf?_turnSlot slot' (·.ask i) slot).symm.trans hline
  | @leftSlot i slot' => exact (lineOf?_turnSlot slot' (·.leave i) slot).symm.trans hline
  | restarted | cleared => exact (lineOf?_turnSlot ..).symm.trans hline
  | opened =>
    obtain ⟨s, hs, hline⟩ := Option.bind_eq_some_iff.mp hline
    have hs : (p.slots ++ [_])[slot]? = some s := hs
    rw [List.getElem?_append] at hs
    split at hs
    · exact Option.bind_eq_some_iff.mpr ⟨s, hs, hline⟩
    · obtain rfl := List.mem_singleton.mp (List.mem_of_getElem? hs)
      exact nomatch hline
  | @established _ slot' =>
    have hslot : slot < p.slots.length := by
      simpa [settle, updateSlot, Pool.setPhase] using lt_of_lineOf? hline
    obtain ⟨s, hs, hline⟩ := Option.bind_eq_some_iff.mp hline
    have hupdated := getElem?_updateSlot (List.getElem?_eq_getElem hslot) slot'
      fun _ => { turn := .free, line := some p.lines.length }
    obtain rfl := Option.some.inj (hs.symm.trans hupdated)
    split at hline
    · obtain rfl := Option.some.inj hline
      exact absurd hknown (Nat.lt_irrefl _)
    · exact Option.bind_eq_some_iff.mpr ⟨_, List.getElem?_eq_getElem hslot, hline⟩
  | _ => exact hline

/-- Only a slot that is new comes into the map. -/
theorem Transition.entry_before {m : Move} (h : Transition S client p m q) {key : Key} {slot : Nat}
    (hmem : (key, slot) ∈ q.entries) : (key, slot) ∈ p.entries ∨ slot = p.slots.length := by
  cases h with
  | opened =>
    obtain hmem | hmem := List.mem_append.mp hmem
    · exact .inl hmem
    · exact .inr (Prod.mk.inj (List.mem_singleton.mp hmem)).2
  | cleared | evicted => exact .inl (List.mem_filter.mp hmem).1
  | _ => exact .inl hmem

/-- A line is there, and no slot in the map has it. -/
structure Cut (p : Pool ρ) (line : Nat) : Prop where
  /-- it is there -/
  known : line < p.lines.length
  /-- who looks a key up does not find it -/
  gone : ∀ key slot, (key, slot) ∈ p.entries → p.lineOf? slot ≠ some line

/-- It stays so. -/
theorem Cut.step {m : Move} {line : Nat} (hcut : p.Cut line) (h : Transition S client p m q) :
    q.Cut line := by
  constructor
  case known =>
    obtain ⟨l, hl, -⟩ := (h.lineChange (List.getElem?_eq_getElem hcut.known)).keeps
    exact (List.getElem?_eq_some_iff.mp hl).1
  case gone =>
    intro key slot hmem hline
    have hbefore := h.lineOf?_before hcut.known hline
    obtain hmem | rfl := h.entry_before hmem
    · exact hcut.gone key slot hmem hbefore
    · exact absurd (lt_of_lineOf? hbefore) (Nat.lt_irrefl _)

/-- A line leads to the host of its key. -/
theorem Owned.line_of_key (hp : p.Owned slotKeys lineKeys) {key : Key} {line : Nat}
    (hkey : lineKeys[line]? = some key) :
    ∃ l, p.lines[line]? = some l ∧ l.connection.endpoint.text = key.1 := by
  have hlt : line < p.lines.length := hp.lines ▸ (List.getElem?_eq_some_iff.mp hkey).1
  obtain ⟨key', hkey', htext⟩ := hp.located line _ (List.getElem?_eq_getElem hlt)
  obtain rfl := Option.some.inj (hkey'.symm.trans hkey)
  exact ⟨_, List.getElem?_eq_getElem hlt, htext⟩

/-- The line in a slot that stands in the map is for the key there. -/
theorem Owned.line_in_map (hp : p.Owned slotKeys lineKeys) {key : Key} {slot line : Nat}
    (hmem : (key, slot) ∈ p.entries) (hline : p.lineOf? slot = some line) :
    lineKeys[line]? = some key :=
  (hp.settled slot line hline).trans (hp.entries key slot hmem)

/-- An eviction under the key of a line takes out every slot that has the line, and no other. -/
theorem Owned.mem_entries_evict (hp : p.Owned slotKeys lineKeys) {key key' : Key}
    {slot line : Nat} (hkey : lineKeys[line]? = some key) :
    (key', slot) ∈ (p.evict key line).entries ↔
      (key', slot) ∈ p.entries ∧ p.lineOf? slot ≠ some line := by
  simp only [evict, List.mem_filter, decide_eq_true_eq]
  refine and_congr_right fun hmem => ⟨fun hkept hline => ?_, fun hother h => hother h.2⟩
  exact hkept ⟨Option.some.inj ((hp.line_in_map hmem hline).symm.trans hkey), hline⟩

variable (S client) in
/-- A task whose exchange failed evicts its line with its next step. The key that the line tells is
its own. -/
theorem step_evicting (hp : p.Owned slotKeys lineKeys) {i line : Nat} {e : ClientError}
    (h : p.phase? i = some (.evicting line e)) : ∃ t l, p.tasks[i]? = some t ∧
      p.lines[line]? = some l ∧ lineKeys[line]? = some t.key ∧
      l.connection.endpoint.text = t.key.1 ∧
      step S client p (.advance i) = (p.evict t.key line).setPhase i (.finished (.error e)) := by
  obtain ⟨t, ht, hphase⟩ := Option.map_eq_some_iff.mp h
  have hkey : lineKeys[line]? = some t.key := hp.belongs ht hphase
  obtain ⟨l, hl, htext⟩ := hp.line_of_key hkey
  refine ⟨t, l, ht, hl, hkey, htext, ?_⟩
  rw [step, advance, ht, Option.bind_eq_bind, Option.bind_some, hphase]
  dsimp only
  rw [hl, Option.bind_eq_bind, Option.bind_some, htext]
  rfl

variable (S client) in
/-- A task whose exchange failed takes its line out of the map with its next step. -/
theorem cut_of_evicting (hp : p.Owned slotKeys lineKeys) {i line : Nat} {e : ClientError}
    (h : p.phase? i = some (.evicting line e)) : (step S client p (.advance i)).Cut line := by
  obtain ⟨t, l, -, hl, hkey, -, hstep⟩ := step_evicting S client hp h
  rw [hstep]
  refine ⟨(List.getElem?_eq_some_iff.mp hl).1, fun key slot hmem hline => ?_⟩
  exact ((hp.mem_entries_evict hkey).mp hmem).2 hline

/-! ## Who goes on with a line -/

end Pool

/-- A task in this phase will have a line without looking for it, or has it and has not used it,
given the lines of the slots. -/
def Phase.Awaits (lineOf? : Nat → Option Nat) (line : Nat) : Phase → Prop
  | .queued slot => lineOf? slot = some line
  | .connected l | .ready l _ => l = line
  | _ => False

namespace Pool

variable {p q : Pool ρ} {slotKeys lineKeys : List Key}

/-- A task waits at a slot for a line that is there already, or has the line and has not used it. -/
def Awaits (p : Pool ρ) (line i : Nat) : Prop :=
  ∃ phase, p.phase? i = some phase ∧ phase.Awaits p.lineOf? line

/-- A task makes a frame on a line, and posts it. -/
def Seals (p q : Pool ρ) (line i : Nat) : Prop :=
  ∃ frame, q.exchange? line i = some frame ∧ p.exchange? line i ≠ some frame

/-- Nobody comes to a line that no slot in the map has. -/
theorem Transition.awaits {m : Move} {line : Nat} (hcut : p.Cut line)
    (h : Transition S client p m q) {i : Nat} (hi : q.Awaits line i) : p.Awaits line i := by
  obtain ⟨phase, hphase, hawaits⟩ := hi
  by_cases hmover : i = m.mover p
  case neg =>
    rw [phase?, h.tasks hmover] at hphase
    refine ⟨phase, hphase, ?_⟩
    cases phase with
    | queued slot => exact h.lineOf?_before hcut.known hawaits
    | _ => exact hawaits
  subst hmover
  obtain ⟨t, ht, rfl⟩ := Option.map_eq_some_iff.mp hphase
  have before : ∀ {t' : Task} {phase : Phase}, p.tasks[m.mover p]? = some t' →
      t'.phase = phase → phase.Awaits p.lineOf? line → p.Awaits line (m.mover p) :=
    fun ht' hphase' h => ⟨_, Option.map_eq_some_iff.mpr ⟨_, ht', hphase'⟩, h⟩
  have hbefore : ∀ slot, q.lineOf? slot = some line → p.lineOf? slot = some line :=
    fun _ => h.lineOf?_before hcut.known
  cases h with
  | idle => exact ⟨t.phase, hphase, hawaits⟩
  | submitted hnew =>
    obtain h | ⟨e, h⟩ := phase_of_submitted hnew ht
    · rw [h] at hawaits
      exact hawaits.elim
    · rw [h] at hawaits
      exact hawaits.elim
  | found htask _ hlookup hline =>
    obtain rfl := eq_of_setPhase htask ht
    obtain rfl := hawaits
    exact absurd hline (hcut.gone _ _ (mem_of_lookup hlookup))
  | joined htask _ _ hline =>
    obtain rfl := eq_of_setPhase htask ht
    cases hline.symm.trans (hbefore _ hawaits)
  | opened htask =>
    obtain rfl := eq_of_setPhase htask ht
    exact absurd (lt_of_lineOf? (hbefore _ hawaits)) (Nat.lt_irrefl _)
  | handed htask hqueued hs hline =>
    obtain rfl := eq_of_setPhase htask ht
    obtain rfl := hawaits
    exact before htask hqueued (Option.bind_eq_some_iff.mpr ⟨_, hs, hline⟩)
  | written htask hconnected =>
    obtain rfl := eq_of_setPhase htask ht
    exact before htask hconnected hawaits
  | established htask =>
    obtain rfl := eq_of_setPhase htask ht
    obtain rfl := hawaits
    exact absurd hcut.known (Nat.lt_irrefl _)
  | began htask | unstarted htask | restarted htask | cleared htask | joinedLine htask
  | unwritten htask | sent htask | unsent htask | evicted htask | continued htask | broken htask
  | received htask | lost htask | leftSlot htask | leftLine htask | left htask =>
    obtain rfl := eq_of_setPhase htask ht
    exact hawaits.elim

/-- Who makes a frame on a line had it before, and is done with it for good. -/
theorem Transition.seals {m : Move} (h : Transition S client p m q) {line i : Nat}
    (hseals : Seals p q line i) : p.Awaits line i ∧ ¬ q.Awaits line i := by
  obtain ⟨frame, hframe, hnew⟩ := hseals
  obtain hbefore | ⟨⟨plain, hready⟩, -⟩ := h.exchange hframe
  · exact absurd hbefore hnew
  · refine ⟨⟨_, hready, rfl⟩, ?_⟩
    rintro ⟨phase, hphase, hawaits⟩
    rw [exchange?, hphase] at hframe
    cases phase with
    | exchanging => exact hawaits
    | _ => cases hframe

section Moments

variable (S client) (g : ρ) (moves : List Move)

theorem after_owned (k : Nat) :
    ∃ slotKeys lineKeys, (after S client g moves k).Owned slotKeys lineKeys :=
  run_owned S client (.empty g) (empty_justified g) _

variable {S client g moves} {line k n : Nat}

theorem cut_after (hkn : k ≤ n) (hcut : (after S client g moves k).Cut line) :
    (after S client g moves n).Cut line := by
  induction hkn with
  | refl => exact hcut
  | @step n _ ih =>
    obtain ⟨m, -, h⟩ | h := after_transition S client g moves n
    · exact ih.step h
    · exact h ▸ ih

/-- Whoever has a line that no slot in the map has, or waits for it, did so all the time. -/
theorem awaits_before {i : Nat} (hkn : k ≤ n) (hcut : (after S client g moves k).Cut line)
    (hi : (after S client g moves n).Awaits line i) : (after S client g moves k).Awaits line i := by
  induction hkn with
  | refl => exact hi
  | @step n hkn ih =>
    obtain ⟨m, -, h⟩ | h := after_transition S client g moves n
    · exact ih (h.awaits (cut_after hkn hcut) hi)
    · exact ih (h ▸ hi)

end Moments

end Pool

end SealedTunnel
