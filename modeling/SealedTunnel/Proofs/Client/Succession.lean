import SealedTunnel.Proofs.Client.Removal

/-!
# Calls one after another

While the tasks of a key do not overlap, the map has a line for the key only as long as the line is
in step. What a task leaves there is told by its result.

* `Pool.Holds`, `Pool.Settled` — the line that the map has for a key; it has none, or one in step.
* `Pool.Transition.lookup_eq`, `Pool.Transition.holds` — tasks of other keys do not touch it.
* `Phase.OnCourse` — what the map has while a task of the key is in a phase.
* `Pool.Leaves` — what the map has when it ends.
* `Pool.Proceeds`, `Pool.Transition.proceeds` — each step of the task keeps to that.
* `Pool.InOrder` — the invariant: each task of the key is on course, and without one it is settled.
* `Pool.Sequential`, `Pool.succession` — tasks of a key one after another.
-/

namespace SealedTunnel

/-- A task in this phase has not ended. -/
def Phase.isActive : Phase → Bool
  | .finished _ | .cancelled => false
  | _ => true

/-- Every frame sent on the line was answered there. -/
def Line.InStep (l : Line) : Prop := l.session.sent = l.session.received

/-! ## Where counters stand -/

namespace Session

variable {ρ : Type} {S : Suite ρ} {s s' : Session}

/-- An initiator in step is ahead by the frame that it seals, -/
theorem sent_of_even {g g' : ρ} {plain : Bytes} {frame : Frame} (hrole : s.role = .initiator)
    (heven : s.sent = s.received) (h : Draw.Yields (encrypt S plain) (s, g) frame (s', g')) :
    s'.sent = s'.received + 1 := by
  obtain ⟨-, hcounter, rfl⟩ := Party.madeBy_of_yields h []
  obtain ⟨-, -, hnext⟩ | ⟨hresponder, -⟩ := nextOutgoing_eq_ok.mp hcounter
  · exact hnext.trans (congrArg (· + 1) heven)
  · exact nomatch hrole.symm.trans hresponder

/-- and in step again with the answer to it. -/
theorem even_of_sent {wire plain : Bytes} (hsent : s.sent = s.received + 1)
    (h : Draw.Yields (decrypt S wire) s plain s') : s'.sent = s'.received := by
  obtain ⟨frame, -, -, hnext, -, -, -, rfl⟩ := yields_decrypt.mp h
  exact hsent.trans hnext.symm

end Session

/-- A handshake ends with a session that has sent nothing and received nothing. -/
theorem Handshake.Completed.sent_eq {ρ : Type} {S : Suite ρ} {policy : TrustPolicy}
    {environment : Environment} {endpoint : String} {as : List Arrival} {rs : List Outer.Request}
    {connection : Connection} {session : Session}
    (h : Completed S policy environment endpoint as rs connection session) :
    session.sent = session.received := by
  cases h
  rfl

theorem Handshake.Completed.role_eq {ρ : Type} {S : Suite ρ} {policy : TrustPolicy}
    {environment : Environment} {endpoint : String} {as : List Arrival} {rs : List Outer.Request}
    {connection : Connection} {session : Session}
    (h : Completed S policy environment endpoint as rs connection session) :
    session.role = .initiator := by
  cases h
  rfl

/-- A handshake starts with message 1. -/
theorem Establishment.start_stage {ρ : Type} {S : Suite ρ} {environment : Environment}
    {endpoint : String} {g g' : ρ} {e : Establishment}
    (h : (start S environment endpoint).run g = (.ok e, g')) :
    ∃ initiator, e.stage = .message2 initiator := by
  have hreached : Handshake.Reached S .insecure environment endpoint [] [e.request] e :=
    start_reached h
  generalize [e.request] = rs at hreached
  cases hreached with
  | message2 b => exact ⟨b.initiator, rfl⟩

/-- Only the transport fails with an error about a message. -/
theorem Outer.reply_of_codec {request : Outer.Request} {reply : Outer.Reply} {fault : Http.Fault}
    (h : request.success reply = .error (.codec fault)) : reply = .error (.codec fault) := by
  cases reply with
  | error e => exact h
  | ok response =>
    simp only [Outer.Request.success, Except.bind, Outer.expectOk] at h
    split at h
    · cases h
    · cases h

namespace Pool

variable {ρ τ : Type} {S : Suite ρ} {client : Client τ} {p q : Pool ρ} {key : Key}
  {slotKeys lineKeys : List Key}

/-! ## What the map has for a key -/

/-- The map has a line for a key. -/
structure Holds (p : Pool ρ) (key : Key) (line : Nat) (l : Line) : Prop where
  /-- it is in the slot of the key -/
  slot : ∃ slot, p.entries.lookup key = some slot ∧ p.lineOf? slot = some line
  /-- it is there -/
  line : p.lines[line]? = some l

/-- The map has no slot for a key, or a slot with a line that is in step. -/
def Settled (p : Pool ρ) (key : Key) : Prop :=
  p.entries.lookup key = none ∨ ∃ line l, p.Holds key line l ∧ l.InStep

theorem Holds.turnLine {line : Nat} {l : Line} (h : p.Holds key line l) (line' : Nat)
    (f : Turn → Turn) : ∃ turn, (p.turnLine line' f).Holds key line { l with turn } :=
  ⟨_, h.slot, getElem?_turnLine h.line line' f⟩

theorem Holds.updateLine {line : Nat} {l : Line} (h : p.Holds key line l) (f : Line → Line) :
    (p.updateLine line f).Holds key line (f l) :=
  ⟨h.slot, (getElem?_updateLine h.line line f).trans (congrArg some (if_pos rfl))⟩

/-- A settled key whose slot has a line holds that line in step. -/
theorem Settled.holds {slot line : Nat} (h : p.Settled key)
    (hlookup : p.entries.lookup key = some slot) (hline : p.lineOf? slot = some line) :
    ∃ l, p.Holds key line l ∧ l.InStep := by
  obtain hnone | ⟨line', l, ⟨⟨slot', hlookup', hline'⟩, hl⟩, hstep⟩ := h
  · exact nomatch hnone.symm.trans hlookup
  · obtain rfl := Option.some.inj (hlookup'.symm.trans hlookup)
    obtain rfl := Option.some.inj (hline'.symm.trans hline)
    exact ⟨l, ⟨⟨slot', hlookup, hline⟩, hl⟩, hstep⟩

/-- It has no slot without a line. -/
theorem Settled.lineOf?_ne {slot : Nat} (h : p.Settled key)
    (hlookup : p.entries.lookup key = some slot) : p.lineOf? slot ≠ none := by
  obtain hnone | ⟨line, l, ⟨⟨slot', hlookup', hline⟩, -⟩, -⟩ := h
  · exact nomatch hnone.symm.trans hlookup
  · obtain rfl := Option.some.inj (hlookup'.symm.trans hlookup)
    rw [hline]
    exact nofun

/-! ### Entries -/

/-- No key has two slots. -/
def Distinct (p : Pool ρ) : Prop :=
  ∀ key slot, (key, slot) ∈ p.entries → p.entries.lookup key = some slot

theorem Distinct.filter (hp : p.Distinct) {entries : List (Key × Nat)} {f : Key × Nat → Bool}
    (h : entries = p.entries.filter f) (key : Key) (slot : Nat) (hmem : (key, slot) ∈ entries) :
    entries.lookup key = some slot := by
  rw [h] at hmem ⊢
  obtain ⟨hmem, hf⟩ := List.mem_filter.mp hmem
  exact lookup_filter (hp key slot hmem) hf

/-- A key whose slot is taken out has none any more. -/
theorem Distinct.lookup_filter_eq_none (hp : p.Distinct) {slot : Nat}
    (hlookup : p.entries.lookup key = some slot) {f : Key × Nat → Bool}
    (hf : f (key, slot) = false) : (p.entries.filter f).lookup key = none := by
  refine List.lookup_eq_none_iff.mpr fun (key', slot') hmem => ?_
  obtain ⟨hmem, hkept⟩ := List.mem_filter.mp hmem
  refine bne_iff_ne.mpr fun heq => ?_
  obtain rfl : key = key' := heq
  obtain rfl := Option.some.inj ((hp key slot' hmem).symm.trans hlookup)
  exact nomatch hf.symm.trans hkept

theorem Distinct.step {i : Nat} (hp : p.Distinct) (h : SlotChange p q i) : q.Distinct := by
  cases h with
  | quiet hentries => exact fun key slot hmem => hentries ▸ hp key slot (hentries ▸ hmem)
  | turned hentries => exact fun key slot hmem => hentries ▸ hp key slot (hentries ▸ hmem)
  | settled _ hentries => exact fun key slot hmem => hentries ▸ hp key slot (hentries ▸ hmem)
  | cleared _ hentries => exact hp.filter hentries
  | evicted hentries => exact hp.filter hentries
  | @opened key' _ hnone _ hentries =>
    intro key slot hmem
    rw [hentries] at hmem ⊢
    rw [List.lookup_append]
    obtain hmem | hmem := List.mem_append.mp hmem
    · rw [hp key slot hmem]
      rfl
    · obtain ⟨rfl, rfl⟩ := Prod.mk.inj (List.mem_singleton.mp hmem)
      rw [hnone]
      simp

/-! ### Other keys -/

/-- A task of another key leaves the slot of a key in place. -/
theorem Transition.lookup_eq {m : Move} (h : Transition S client p m q)
    (hp : p.Owned slotKeys lineKeys)
    (hother : ∀ t, p.tasks[m.mover p]? = some t → t.key ≠ key) :
    q.entries.lookup key = p.entries.lookup key := by
  -- what is taken out stands under the key of the task
  have hkeep : ∀ {f : Key × Nat → Bool}, (∀ slot, f (key, slot) = true) →
      (p.entries.filter f).lookup key = p.entries.lookup key := by
    intro f hf
    cases hlookup : p.entries.lookup key with
    | some slot => exact lookup_filter hlookup (hf slot)
    | none =>
      refine List.lookup_eq_none_iff.mpr fun x hx => ?_
      exact List.lookup_eq_none_iff.mp hlookup x (List.mem_filter.mp hx).1
  cases h with
  | opened htask =>
    have hne := hother _ htask
    show (p.entries ++ [_]).lookup key = _
    rw [List.lookup_append]
    cases p.entries.lookup key with
    | some slot => rfl
    | none => simp [List.lookup_cons, beq_eq_false_iff_ne.mpr (Ne.symm hne)]
  | cleared htask =>
    have hne := hother _ htask
    exact hkeep fun slot => decide_eq_true fun hand => hne hand.1.symm
  | evicted htask hphase hl =>
    have hne := hother _ htask
    rw [hp.evict_key htask hphase hl]
    exact hkeep fun slot => decide_eq_true fun hand => hne hand.1.symm
  | _ => rfl

/-- A task that waits for a reply on a line is for the key of the line. -/
theorem Owned.exchange_key (hp : p.Owned slotKeys lineKeys) {line i : Nat} {frame : Frame}
    (h : p.exchange? line i = some frame) :
    ∃ t, p.tasks[i]? = some t ∧ lineKeys[line]? = some t.key := by
  obtain ⟨phase, hphase, hframe⟩ := Option.bind_eq_some_iff.mp h
  obtain ⟨t, ht, hphase⟩ := Option.map_eq_some_iff.mp hphase
  refine ⟨t, ht, ?_⟩
  cases phase with
  | exchanging line' frame' =>
    have hbelongs := hp.belongs ht hphase
    simp only [Phase.frame?] at hframe
    split at hframe
    · rename_i hline
      exact hline ▸ hbelongs
    · exact nomatch hframe
  | _ => exact nomatch hframe

/-- Nor does it use the line there. -/
theorem Transition.holds {m : Move} (h : Transition S client p m q) (hg : p.Guarded)
    (hp : p.Owned slotKeys lineKeys)
    (hother : ∀ t, p.tasks[m.mover p]? = some t → t.key ≠ key) {line : Nat} {l : Line}
    (hholds : p.Holds key line l) :
    ∃ l', q.Holds key line l' ∧ l'.session = l.session := by
  obtain ⟨⟨slot, hlookup, hline⟩, hl⟩ := hholds
  have hslot : ∃ slot, q.entries.lookup key = some slot ∧ q.lineOf? slot = some line :=
    ⟨slot, (h.lookup_eq hp hother).trans hlookup, (h.slotChange hg).lineOf?_eq hline⟩
  -- the line is for the key, and so are the tasks that use it
  have hkey : lineKeys[line]? = some key :=
    (hp.settled slot line hline).trans (hp.entries key slot (mem_of_lookup hlookup))
  cases h.lineChange hl with
  | quiet hl' => exact ⟨_, ⟨hslot, hl'⟩, rfl⟩
  | lost _ _ _ hl' => exact ⟨_, ⟨hslot, hl'⟩, rfl⟩
  | @sent i _ frame _ _ _ _ hnone _ _ hexchange =>
    obtain hbefore | ⟨⟨plain, hready⟩, -⟩ :=
      h.exchange ((hexchange i).trans (if_pos rfl) : q.exchange? line i = some frame)
    · exact nomatch hnone.symm.trans hbefore
    · obtain ⟨t, ht, hphase⟩ := Option.map_eq_some_iff.mp hready
      have hkey' := (hp.belongs ht hphase : lineKeys[line]? = some t.key)
      exact absurd (Option.some.inj (hkey'.symm.trans hkey)) (hother t ht)
  | received hexchanging =>
    obtain ⟨t, ht, hkey'⟩ := hp.exchange_key hexchanging
    exact absurd (Option.some.inj (hkey'.symm.trans hkey)) (hother t ht)

/-- A settled key stays so. -/
theorem Transition.settled {m : Move} (h : Transition S client p m q) (hg : p.Guarded)
    (hp : p.Owned slotKeys lineKeys)
    (hother : ∀ t, p.tasks[m.mover p]? = some t → t.key ≠ key) (hsettled : p.Settled key) :
    q.Settled key := by
  obtain hnone | ⟨line, l, hholds, hstep⟩ := hsettled
  · exact .inl ((h.lookup_eq hp hother).trans hnone)
  · obtain ⟨l', hholds', hsession⟩ := h.holds hg hp hother hholds
    refine .inr ⟨line, l', hholds', ?_⟩
    rw [Line.InStep, hsession]
    exact hstep

end Pool

/-! ## A task of the key -/

/-- What the map has for the key of a task that is in a phase: a line in step or none while it
looks, its own slot while it does the handshake, and then its own line, which is in step but for the
frame that it sent. -/
def Phase.OnCourse {ρ : Type} (p : Pool ρ) (key : Key) (i : Nat) : Phase → Prop
  | .seeking => p.Settled key
  | .queued slot | .establishing slot _ | .failing slot _ => p.Guards i slot key
  | .connected line | .ready line _ => ∃ l, p.Holds key line l ∧ l.InStep
  | .exchanging line _ => ∃ l, p.Holds key line l ∧ l.session.sent = l.session.received + 1
  | .evicting line e => (∃ l, p.Holds key line l) ∧ ∀ fault, e ≠ .codec fault
  | .finished _ | .cancelled => True

theorem Phase.onCourse_of_ended {ρ : Type} {p : Pool ρ} {key : Key} {i : Nat} (phase : Phase)
    (h : phase.isActive = false) : phase.OnCourse p key i := by
  cases phase with
  | finished | cancelled => exact trivial
  | _ => exact nomatch h

namespace Pool

variable {ρ τ : Type} {S : Suite ρ} {client : Client τ} {p q : Pool ρ} {key : Key}
  {slotKeys lineKeys : List Key}

/-- While tasks of other keys move, it stays so. -/
theorem Transition.onCourse_of_ne {m : Move} (h : Transition S client p m q) (hg : p.Guarded)
    (hp : p.Owned slotKeys lineKeys)
    (hother : ∀ t, p.tasks[m.mover p]? = some t → t.key ≠ key) {i : Nat} (hi : i ≠ m.mover p)
    {phase : Phase} (hphase : phase.OnCourse p key i) : phase.OnCourse q key i := by
  cases phase with
  | seeking => exact h.settled hg hp hother hphase
  | queued | establishing | failing => exact (h.slotChange hg).guards hi hphase
  | connected line | ready line =>
    obtain ⟨l, hholds, hstep⟩ := hphase
    obtain ⟨l', hholds', hsession⟩ := h.holds hg hp hother hholds
    refine ⟨l', hholds', ?_⟩
    rw [Line.InStep, hsession]
    exact hstep
  | exchanging line =>
    obtain ⟨l, hholds, hstep⟩ := hphase
    obtain ⟨l', hholds', hsession⟩ := h.holds hg hp hother hholds
    exact ⟨l', hholds', hsession ▸ hstep⟩
  | evicting line =>
    obtain ⟨⟨l, hholds⟩, hcodec⟩ := hphase
    obtain ⟨l', hholds', -⟩ := h.holds hg hp hother hholds
    exact ⟨⟨l', hholds'⟩, hcodec⟩
  | finished | cancelled => exact trivial

/-- What the map has for the key of a task that has ended from a phase with a result. -/
structure Leaves (p : Pool ρ) (key : Key) (before : Phase)
    (result : Except ClientError Outcome) : Prop where
  /-- a task with an answer, or one that failed on a message only, leaves its line in step -/
  kept : (∀ e, result = .error e → (∃ line, before.Has line) ∧ ∃ fault, e = .codec fault) →
    ∃ line l, before.Has line ∧ p.Holds key line l ∧ l.InStep
  /-- any other one leaves nothing -/
  gone : ∀ e, result = .error e → (∀ line, before.Has line → ∀ fault, e ≠ .codec fault) →
    p.entries.lookup key = none

theorem Leaves.of_holds {before : Phase} {line : Nat} {l : Line}
    {result : Except ClientError Outcome} (hhas : before.Has line) (hholds : p.Holds key line l)
    (hstep : l.InStep) (hcodec : ∀ e, result = .error e → ∃ fault, e = .codec fault) :
    p.Leaves key before result where
  kept := fun _ => ⟨line, l, hhas, hholds, hstep⟩
  gone := by
    intro e he hne
    obtain ⟨fault, rfl⟩ := hcodec e he
    exact absurd rfl (hne line hhas fault)

theorem Leaves.of_lookup {before : Phase} {e : ClientError} (hnone : p.entries.lookup key = none)
    (hcodec : ∀ line, before.Has line → ∀ fault, e ≠ .codec fault) :
    p.Leaves key before (.error e) where
  kept := by
    intro h
    obtain ⟨⟨line, hhas⟩, fault, rfl⟩ := h e rfl
    exact absurd rfl (hcodec line hhas fault)
  gone := fun _ _ _ => hnone

/-- In any case the key is settled. -/
theorem Leaves.settled {before : Phase} {result : Except ClientError Outcome}
    (h : p.Leaves key before result) : p.Settled key := by
  by_cases hkept : ∀ e, result = .error e → (∃ line, before.Has line) ∧ ∃ fault, e = .codec fault
  · obtain ⟨line, l, -, hholds, hstep⟩ := h.kept hkept
    exact .inr ⟨line, l, hholds, hstep⟩
  · obtain ⟨e, he⟩ := not_forall.mp hkept
    obtain ⟨he, hne⟩ := Classical.not_imp.mp he
    exact .inl (h.gone e he fun line hhas fault hfault =>
      hne ⟨⟨line, hhas⟩, fault, hfault⟩)

/-- A task goes on from one phase to another: the map has what it should, and if the task has ended
it leaves what it should. -/
structure Proceeds (p : Pool ρ) (key : Key) (i : Nat) (before after : Phase) : Prop where
  /-- what the map has now -/
  course : after.OnCourse p key i
  /-- what the task leaves there -/
  leaves : ∀ result, after = .finished result → before = .finished result ∨
    p.Leaves key before result
  /-- it is not given up -/
  kept : after = .cancelled → before = .cancelled

theorem Proceeds.refl {i : Nat} {phase : Phase} (h : phase.OnCourse p key i) :
    p.Proceeds key i phase phase := ⟨h, fun _ hfinished => .inl hfinished, id⟩

/-- A task that has ended is on course anyway. -/
theorem Proceeds.of_leaves {i : Nat} {before : Phase} {result : Except ClientError Outcome}
    (h : p.Leaves key before result) : p.Proceeds key i before (.finished result) where
  course := trivial
  leaves := by
    intro result' hresult
    obtain rfl := Phase.finished.inj hresult
    exact .inr h
  kept := nofun

theorem Proceeds.of_course {i : Nat} {before after : Phase} (h : after.OnCourse p key i)
    (hactive : after.isActive = true) : p.Proceeds key i before after where
  course := h
  leaves := by
    rintro _ rfl
    exact nomatch hactive
  kept := by
    rintro rfl
    exact nomatch hactive

/-- A new line is in step. -/
theorem holds_settle {i slot : Nat} {session : Session} (hguards : p.Guards i slot key)
    (hstart : session.sent = session.received) (connection : Connection) :
    ∃ l, (p.settle i slot connection session).Holds key p.lines.length l ∧ l.InStep := by
  obtain ⟨s, hs, -, -⟩ := hguards.empty
  have hsettled := getElem?_updateSlot hs slot fun _ =>
    { turn := .free, line := some p.lines.length }
  rw [if_pos rfl] at hsettled
  refine ⟨_, ⟨⟨slot, hguards.mapped, ?_⟩, List.getElem?_concat_length⟩, hstart⟩
  exact Option.bind_eq_some_iff.mpr ⟨_, hsettled, rfl⟩

theorem guards_opened (i : Nat) (hnone : p.entries.lookup key = none) :
    { p with
      entries := p.entries ++ [(key, p.slots.length)]
      slots := p.slots ++ [{ turn := Turn.free.ask i, line := none }] : Pool ρ }.Guards i
      p.slots.length key := by
  refine ⟨?_, _, List.getElem?_concat_length, rfl, rfl⟩
  show (p.entries ++ [(key, p.slots.length)]).lookup key = _
  rw [List.lookup_append, hnone]
  simp

/-- A line is that of an initiator. -/
theorem Justified.role_eq (hp : Justified S client p) {line : Nat} {l : Line}
    (hl : p.lines[line]? = some l) : l.session.role = .initiator := by
  obtain ⟨_, _, _, first, hcompleted, hreset⟩ := hp.lines line l hl
  have hrole := congrArg Session.role hreset
  exact hrole.trans hcompleted.role_eq

/-- A task takes a step of its own, or gets a reply. -/
theorem Transition.proceeds {m : Move} (h : Transition S client p m q)
    (hp : p.Owned slotKeys lineKeys) (hjustified : Justified S client p) (hd : p.Distinct)
    (hkept : ∀ j, m ≠ .cancel j)
    (hreply : ∀ j now e judge, m = .deliver j now (.error e) judge → ∀ fault, e ≠ .codec fault)
    {t : Task} (ht : p.tasks[m.mover p]? = some t)
    (hcourse : t.phase.OnCourse p t.key (m.mover p)) :
    ∃ t', q.tasks[m.mover p]? = some t' ∧ t'.key = t.key ∧
      q.Proceeds t.key (m.mover p) t.phase t'.phase := by
  cases h with
  | idle => exact ⟨t, ht, rfl, .refl hcourse⟩
  | submitted =>
    have hbound : p.tasks.length < p.tasks.length := (List.getElem?_eq_some_iff.mp ht).1
    exact absurd hbound (Nat.lt_irrefl _)
  | found htask hphase hlookup hline =>
    obtain rfl := Option.some.inj (htask.symm.trans ht)
    rw [hphase] at hcourse ⊢
    obtain ⟨l, hholds, hstep⟩ := Settled.holds hcourse hlookup hline
    exact ⟨_, getElem?_setPhase htask _, rfl, .of_course ⟨l, ⟨hholds.1, hholds.2⟩, hstep⟩ rfl⟩
  | joined htask hphase hlookup hline =>
    obtain rfl := Option.some.inj (htask.symm.trans ht)
    rw [hphase] at hcourse
    exact absurd hline (Settled.lineOf?_ne hcourse hlookup)
  | @opened i task htask hphase hnone =>
    obtain rfl := Option.some.inj (htask.symm.trans ht)
    have hguards := guards_opened i hnone
    exact ⟨_, getElem?_setPhase htask _, rfl, .of_course ⟨hguards.1, hguards.2⟩ rfl⟩
  | @handed i slot line task s htask hphase hs hline =>
    obtain rfl := Option.some.inj (htask.symm.trans ht)
    rw [hphase] at hcourse
    have hempty := Guards.lineOf?_eq hcourse
    rw [lineOf?, hs] at hempty
    cases hline.symm.trans hempty
  | began htask hphase | unstarted htask hphase | continued htask hphase | broken htask hphase =>
    obtain rfl := Option.some.inj (htask.symm.trans ht)
    rw [hphase] at hcourse ⊢
    exact ⟨_, getElem?_setPhase htask _, rfl, .of_course ⟨hcourse.1, hcourse.2⟩ rfl⟩
  | restarted htask hphase _ _ _ hlookup =>
    obtain rfl := Option.some.inj (htask.symm.trans ht)
    rw [hphase] at hcourse
    exact absurd (Guards.mapped hcourse) hlookup
  | @cleared i slot task e htask hphase =>
    obtain rfl := Option.some.inj (htask.symm.trans ht)
    rw [hphase] at hcourse ⊢
    have hnone := hd.lookup_filter_eq_none (Guards.mapped hcourse)
      (f := fun x => decide ¬ (x.1 = task.key ∧ x.2 = slot)) (by simp)
    exact ⟨_, getElem?_setPhase htask _, rfl, .of_leaves (.of_lookup hnone fun _ h => h.elim)⟩
  | joinedLine htask hphase =>
    obtain rfl := Option.some.inj (htask.symm.trans ht)
    rw [hphase] at hcourse ⊢
    obtain ⟨l, hholds, hstep⟩ := hcourse
    exact ⟨_, getElem?_setPhase htask _, rfl,
      .of_leaves (.of_holds rfl ⟨hholds.1, hholds.2⟩ hstep fun _ he => by cases he)⟩
  | unwritten htask hphase =>
    obtain rfl := Option.some.inj (htask.symm.trans ht)
    rw [hphase] at hcourse ⊢
    obtain ⟨l, hholds, hstep⟩ := hcourse
    exact ⟨_, getElem?_setPhase htask _, rfl, .of_leaves (.of_holds rfl ⟨hholds.1, hholds.2⟩ hstep
      fun e he => ⟨_, (Except.error.inj he).symm⟩)⟩
  | written htask hphase =>
    obtain rfl := Option.some.inj (htask.symm.trans ht)
    rw [hphase] at hcourse
    obtain ⟨l, hholds, hstep⟩ := hcourse
    obtain ⟨turn, hturned⟩ := hholds.turnLine _ (·.ask _)
    exact ⟨_, getElem?_setPhase htask _, rfl,
      .of_course ⟨_, ⟨hturned.1, hturned.2⟩, hstep⟩ rfl⟩
  | @sent i line task l plain frame session g htask hphase hl hholder hsend =>
    obtain rfl := Option.some.inj (htask.symm.trans ht)
    rw [hphase] at hcourse
    obtain ⟨l', hholds, hstep⟩ := hcourse
    obtain rfl := Option.some.inj (hholds.line.symm.trans hl)
    have hupdated := hholds.updateLine fun l => { l with session }
    refine ⟨_, getElem?_setPhase htask _, rfl,
      .of_course ⟨_, ⟨hupdated.1, hupdated.2⟩, ?_⟩ rfl⟩
    exact Session.sent_of_even (hjustified.role_eq hl) hstep (.of_run hsend)
  | @unsent i line task l plain e g htask hphase hl =>
    obtain rfl := Option.some.inj (htask.symm.trans ht)
    rw [hphase] at hcourse
    obtain ⟨l', hholds, -⟩ := hcourse
    obtain ⟨turn, hturned⟩ := hholds.turnLine line Turn.release
    exact ⟨_, getElem?_setPhase htask _, rfl,
      .of_course ⟨⟨_, hturned.1, hturned.2⟩, fun _ he => by cases he⟩ rfl⟩
  | @evicted i line task l e htask hphase hl =>
    obtain rfl := Option.some.inj (htask.symm.trans ht)
    have hown := hp.evict_key htask hphase hl
    rw [hphase] at hcourse ⊢
    obtain ⟨⟨l', ⟨slot, hlookup, hline⟩, -⟩, hcodec⟩ := hcourse
    have hnone := hd.lookup_filter_eq_none hlookup
      (f := fun x => decide ¬ (x.1 = task.key ∧ p.lineOf? x.2 = some line)) (by simp [hline])
    rw [hown]
    exact ⟨_, getElem?_setPhase htask _, rfl,
      .of_leaves (.of_lookup hnone fun _ _ => hcodec)⟩
  | @established i slot task e now reply judge connection session g htask hphase hresume =>
    obtain rfl := Option.some.inj (htask.symm.trans ht)
    rw [hphase] at hcourse
    obtain ⟨as, rs, hreached⟩ := hjustified.handshakes _ _ _ _ htask hphase
    have hstart := (Establishment.resume_completed (a := ⟨now, reply, judge⟩) hreached
      hresume).sent_eq
    obtain ⟨l, hholds, hstep⟩ := holds_settle hcourse hstart connection
    exact ⟨_, getElem?_setPhase htask _, rfl, .of_course ⟨l, ⟨hholds.1, hholds.2⟩, hstep⟩ rfl⟩
  | @received i line task l frame now reply judge response plain session result htask hphase hl _
      hdecrypt _ _ herror =>
    obtain rfl := Option.some.inj (htask.symm.trans ht)
    rw [hphase] at hcourse ⊢
    obtain ⟨l', hholds, hsent⟩ := hcourse
    obtain rfl := Option.some.inj (hholds.line.symm.trans hl)
    obtain ⟨turn, hturned⟩ := hholds.turnLine line Turn.release
    have hupdated := hturned.updateLine fun l => { l with session }
    have heven := Session.even_of_sent hsent (.of_run hdecrypt)
    exact ⟨_, getElem?_setPhase htask _, rfl,
      .of_leaves (.of_holds rfl ⟨hupdated.1, hupdated.2⟩ heven herror)⟩
  | @lost i line task l frame now reply judge e htask hphase hl hfailed =>
    obtain rfl := Option.some.inj (htask.symm.trans ht)
    rw [hphase] at hcourse
    obtain ⟨l', hholds, -⟩ := hcourse
    obtain ⟨turn, hturned⟩ := hholds.turnLine line Turn.release
    refine ⟨_, getElem?_setPhase htask _, rfl,
      .of_course ⟨⟨_, hturned.1, hturned.2⟩, fun fault he => ?_⟩ rfl⟩
    subst he
    obtain hfailed | ⟨e', he'⟩ := hfailed
    · have hcodec := Outer.reply_of_codec hfailed
      exact hreply i now _ judge (congrArg (Move.deliver i now · judge) hcodec) fault rfl
    · cases he'
  | leftSlot | leftLine | left => exact absurd rfl (hkept _)

/-! ## Steps and runs -/

/-- What a step does to the task that moves: nothing, or it enters, or it goes on to another phase,
and then it had not ended or it is given up. -/
theorem Transition.moved {m : Move} (h : Transition S client p m q) : q = p ∨
    (p.tasks[m.mover p]? = none ∧ ∃ t, q.tasks[m.mover p]? = some t ∧
      (t.phase = .seeking ∨ ∃ e, t.phase = .finished (.error e))) ∨
    ∃ t phase, p.tasks[m.mover p]? = some t ∧ q.tasks[m.mover p]? = some { t with phase } ∧
      (t.phase.isActive = true ∨ ∃ j, m = .cancel j) := by
  cases h with
  | idle => exact .inl rfl
  | submitted hnew =>
    exact .inr (.inl ⟨List.getElem?_eq_none (Nat.le_refl _), _, List.getElem?_concat_length, hnew⟩)
  | found htask hphase | joined htask hphase | opened htask hphase | handed htask hphase
  | began htask hphase | unstarted htask hphase | restarted htask hphase | cleared htask hphase
  | joinedLine htask hphase | unwritten htask hphase | written htask hphase | sent htask hphase
  | unsent htask hphase | evicted htask hphase | continued htask hphase
  | established htask hphase | broken htask hphase | received htask hphase
  | lost htask hphase =>
    exact .inr (.inr ⟨_, _, htask, getElem?_setPhase htask _, .inl (by rw [hphase]; rfl)⟩)
  | leftSlot htask | leftLine htask | left htask =>
    exact .inr (.inr ⟨_, _, htask, getElem?_setPhase htask _, .inr ⟨_, rfl⟩⟩)

/-- A task that has ended takes no step. -/
theorem Transition.eq_of_ended {m : Move} (h : Transition S client p m q)
    (hkept : ∀ j, m ≠ .cancel j) {t : Task} (ht : p.tasks[m.mover p]? = some t)
    (hended : t.phase.isActive = false) : q = p := by
  obtain h | ⟨hnone, -⟩ | ⟨t', phase, ht', -, hactive | ⟨j, hj⟩⟩ := h.moved
  · exact h
  · exact nomatch hnone.symm.trans ht
  · obtain rfl := Option.some.inj (ht'.symm.trans ht)
    exact nomatch hended.symm.trans hactive
  · exact absurd hj (hkept j)

/-- A task that is there keeps its key. -/
theorem Transition.key_eq {m : Move} (h : Transition S client p m q) {i : Nat} {t t' : Task}
    (ht : p.tasks[i]? = some t) (ht' : q.tasks[i]? = some t') : t'.key = t.key := by
  by_cases hi : i = m.mover p
  case neg => exact congrArg Task.key (Option.some.inj (ht'.symm.trans ((h.tasks hi).trans ht)))
  subst hi
  obtain rfl | ⟨hnone, -⟩ | ⟨t₁, phase, ht₁, ht₁', -⟩ := h.moved
  · exact congrArg Task.key (Option.some.inj (ht'.symm.trans ht))
  · exact nomatch hnone.symm.trans ht
  · obtain rfl := Option.some.inj (ht₁.symm.trans ht)
    obtain rfl := Option.some.inj (ht₁'.symm.trans ht')
    rfl

/-- A task that was not there looks for its slot, or has ended already. -/
theorem Transition.phase_of_new {m : Move} (h : Transition S client p m q) {i : Nat} {t : Task}
    (hnone : p.tasks[i]? = none) (ht : q.tasks[i]? = some t) (hactive : t.phase.isActive = true) :
    t.phase = .seeking := by
  by_cases hi : i = m.mover p
  case neg => exact nomatch ((h.tasks hi).trans hnone).symm.trans ht
  subst hi
  obtain rfl | ⟨-, t', ht', hseeking | ⟨e, hended⟩⟩ | ⟨t', -, ht', -⟩ := h.moved
  · exact nomatch hnone.symm.trans ht
  · obtain rfl := Option.some.inj (ht'.symm.trans ht)
    exact hseeking
  · obtain rfl := Option.some.inj (ht'.symm.trans ht)
    rw [hended] at hactive
    exact nomatch hactive
  · exact nomatch hnone.symm.trans ht'

/-- At most one task of the key has not ended. -/
def Alone (p : Pool ρ) (key : Key) : Prop :=
  ∀ (i j : Nat) (t t' : Task), p.tasks[i]? = some t → p.tasks[j]? = some t' → t.key = key →
    t'.key = key → t.phase.isActive = true → t'.phase.isActive = true → i = j

/-- The map has for a key what it should, whether a task of the key is under way or not. -/
structure InOrder (p : Pool ρ) (key : Key) : Prop where
  /-- each task of the key is on course -/
  course : ∀ (i : Nat) (t : Task), p.tasks[i]? = some t → t.key = key →
    t.phase.OnCourse p key i
  /-- without one, the key is settled -/
  idle : (∀ (i : Nat) (t : Task), p.tasks[i]? = some t → t.key = key → t.phase.isActive = false) →
    p.Settled key

theorem empty_inOrder (g : ρ) (key : Key) : (empty g).InOrder key where
  course := fun _ _ h => nomatch h
  idle := fun _ => .inl rfl

/-- While a task of another key moves, or a task enters. -/
theorem InOrder.step_other {m : Move} (hp : p.InOrder key) (h : Transition S client p m q)
    (hg : p.Guarded) (howned : p.Owned slotKeys lineKeys)
    (hother : ∀ t, p.tasks[m.mover p]? = some t → t.key ≠ key) (halone : q.Alone key) :
    q.InOrder key := by
  have hsettled : (∀ i t, i ≠ m.mover p → q.tasks[i]? = some t → t.key = key →
      t.phase.isActive = false) → q.Settled key := by
    intro hidle
    refine h.settled hg howned hother (hp.idle fun i t ht hkey => ?_)
    have hi : i ≠ m.mover p := by
      rintro rfl
      exact hother t ht hkey
    exact hidle i t hi ((h.tasks hi).trans ht) hkey
  refine ⟨fun i t ht hkey => ?_, fun hidle => hsettled fun i t _ => hidle i t⟩
  by_cases hi : i = m.mover p
  case neg =>
    have hbefore := (h.tasks hi).symm.trans ht
    exact h.onCourse_of_ne hg howned hother hi (hp.course i t hbefore hkey)
  cases hactive : t.phase.isActive with
  | false => exact t.phase.onCourse_of_ended hactive
  | true =>
    have hnone : p.tasks[i]? = none := by
      cases hbefore : p.tasks[i]? with
      | none => rfl
      | some t' => exact absurd ((h.key_eq hbefore ht).symm.trans hkey) (hother t' (hi ▸ hbefore))
    rw [h.phase_of_new hnone ht hactive]
    refine hsettled fun j t' hj ht' hkey' => ?_
    -- the task that enters is the only one
    by_contra hactive'
    have hsame := halone i j t t' ht ht' hkey hkey' hactive (eq_true_of_ne_false hactive')
    exact hj (hsame.symm.trans hi)

/-- While a task of the key moves. -/
theorem InOrder.step_own {m : Move} (hp : p.InOrder key) (h : Transition S client p m q)
    (howned : p.Owned slotKeys lineKeys) (hjustified : Justified S client p) (hd : p.Distinct)
    (hkept : ∀ j, m ≠ .cancel j)
    (hreply : ∀ j now e judge, m = .deliver j now (.error e) judge → ∀ fault, e ≠ .codec fault)
    (halone : p.Alone key) {t : Task} (ht : p.tasks[m.mover p]? = some t) (hkey : t.key = key) :
    q.InOrder key := by
  subst hkey
  cases hactive : t.phase.isActive with
  | false => exact h.eq_of_ended hkept ht hactive ▸ hp
  | true =>
    obtain ⟨t', ht', hkey', hproceeds⟩ := h.proceeds howned hjustified hd hkept hreply ht
      (hp.course _ t ht rfl)
    -- all others of the key have ended
    have hothers : ∀ i t₁, i ≠ m.mover p → q.tasks[i]? = some t₁ → t₁.key = t.key →
        t₁.phase.isActive = false := by
      intro i t₁ hi ht₁ hkey₁
      by_contra hactive₁
      have hbefore := (h.tasks hi).symm.trans ht₁
      exact hi (halone i (m.mover p) t₁ t hbefore ht hkey₁ rfl
        (eq_true_of_ne_false hactive₁) hactive)
    refine ⟨fun i t₁ ht₁ hkey₁ => ?_, fun hidle => ?_⟩
    · by_cases hi : i = m.mover p
      · subst hi
        obtain rfl := Option.some.inj (ht'.symm.trans ht₁)
        exact hproceeds.course
      · exact t₁.phase.onCourse_of_ended (hothers i t₁ hi ht₁ hkey₁)
    · have hended := hidle _ t' ht' hkey'
      cases hphase : t'.phase with
      | finished result =>
        obtain hbefore | hleaves := hproceeds.leaves result hphase
        · rw [hbefore] at hactive
          exact nomatch hactive
        · exact hleaves.settled
      | cancelled =>
        rw [hproceeds.kept hphase] at hactive
        exact nomatch hactive
      | _ =>
        rw [hphase] at hended
        exact nomatch hended

/-! ### A handshake when there is nothing -/

variable (S client)

/-- A task that looks for a slot opens one if there is none, -/
theorem step_opens {i : Nat} {t : Task} (ht : p.tasks[i]? = some t) (hphase : t.phase = .seeking)
    (hnone : p.entries.lookup t.key = none) :
    (step S client p (.advance i)).phase? i = some (.queued p.slots.length) := by
  have hstep : step S client p (.advance i) = p.seek i t.key := by
    rw [step, advance, ht, Option.bind_eq_bind, Option.bind_some, hphase]
    rfl
  rw [hstep, seek, hnone]
  exact (phase?_setPhase (p := { p with entries := _, slots := _ }) ht _ _).trans (if_pos rfl)

/-- and has the line that is there otherwise. -/
theorem step_finds {i line : Nat} {t : Task} {l : Line} (ht : p.tasks[i]? = some t)
    (hphase : t.phase = .seeking) (hholds : p.Holds t.key line l) :
    (step S client p (.advance i)).phase? i = some (.connected line) := by
  obtain ⟨slot, hlookup, hline⟩ := hholds.slot
  have hstep : step S client p (.advance i) = p.seek i t.key := by
    rw [step, advance, ht, Option.bind_eq_bind, Option.bind_some, hphase]
    rfl
  rw [hstep, seek, hlookup]
  dsimp only
  rw [hline]
  exact (phase?_setPhase ht _ _).trans (if_pos rfl)

/-- A task that guards its slot starts a handshake there. -/
theorem step_begins {i slot : Nat} {t : Task} (ht : p.tasks[i]? = some t)
    (hphase : t.phase = .queued slot) (hguards : p.Guards i slot t.key) :
    (step S client p (.advance i)).phase? i = some
      (match ((Establishment.start S client.environment t.key.1).run p.generator).1 with
      | .ok establishment => .establishing slot establishment
      | .error e => .failing slot e) := by
  obtain ⟨hmapped, s, hs, hline, hholder⟩ := hguards
  have hstep : step S client p (.advance i) = begin S client p i t.key slot := by
    rw [step, advance, ht, Option.bind_eq_bind, Option.bind_some, hphase]
    dsimp only
    rw [hs, Option.bind_eq_bind, Option.bind_some, hline]
    dsimp only
    rw [if_pos hholder]
    rfl
  rw [hstep, begin, if_pos hmapped]
  rcases (Establishment.start S client.environment t.key.1).run p.generator with
    ⟨e | establishment, g⟩
  · exact (phase?_setPhase (p := { p with generator := g }) ht _ _).trans (if_pos rfl)
  · exact (phase?_setPhase (p := { p with generator := g }) ht _ _).trans (if_pos rfl)

/-! ## All together -/

section Moments

variable (g : ρ) (moves : List Move) (key)

/-- The tasks of a key come one after another, none of them is given up, and the transport does not
fail with an error about a message. -/
structure Sequential : Prop where
  /-- at any time, at most one of them has not ended -/
  alone : ∀ k, (after S client g moves k).Alone key
  /-- they are not given up -/
  kept : ∀ (k i : Nat) (t : Task), moves[k]? = some (.cancel i) →
    (after S client g moves k).tasks[i]? = some t → t.key ≠ key
  /-- the transport fails with errors of its own -/
  transport : ∀ i now e judge, .deliver i now (.error e) judge ∈ moves → ∀ fault, e ≠ .codec fault

variable {S client g moves key}

theorem after_distinct (k : Nat) : (after S client g moves k).Distinct := by
  induction k with
  | zero => exact fun _ _ h => absurd h List.not_mem_nil
  | succ k ih =>
    obtain ⟨i, h⟩ := slotChange_after S client g moves k
    exact ih.step h

theorem after_justified (k : Nat) : Justified S client (after S client g moves k) :=
  run_justified S client (empty_justified g) _

theorem Sequential.inOrder (h : Sequential S client key g moves) (k : Nat) :
    (after S client g moves k).InOrder key := by
  induction k with
  | zero => exact empty_inOrder g key
  | succ k ih =>
    obtain ⟨m, hm, hnext⟩ | hsame := after_transition S client g moves k
    case inr => exact hsame ▸ ih
    obtain ⟨slotKeys, lineKeys, howned⟩ := after_owned S client g moves k
    by_cases hown : ∃ t, (after S client g moves k).tasks[m.mover (after S client g moves k)]? =
        some t ∧ t.key = key
    · obtain ⟨t, ht, hkey⟩ := hown
      refine ih.step_own hnext howned (after_justified k) (after_distinct k) ?_ ?_ (h.alone k) ht
        hkey
      · rintro i rfl
        exact h.kept k i t hm ht hkey
      · rintro i now e judge rfl
        exact h.transport i now e judge (List.mem_of_getElem? hm)
    · refine ih.step_other hnext (after_guarded S client g moves k) howned ?_ (h.alone (k + 1))
      exact fun t ht hkey => hown ⟨t, ht, hkey⟩

end Moments

variable {S client} in
/-- While the tasks of a key come one after another, whatever the network answers and whatever the
tasks of other keys do: when none is under way, the map has no slot for the key, or one with a line
that is in step. A task that ends with an answer, or with an error about a message once it has a
line, leaves this line there, in step; one that ends with another error leaves nothing. The entry
stays until the next task of the key looks for it. That one has the line, or opens a slot and starts
a handshake there. -/
theorem succession {g : ρ} {moves : List Move} (h : Sequential S client key g moves) (k : Nat) :
    let p := after S client g moves k
    let q := after S client g moves (k + 1)
    ((∀ (i : Nat) (t : Task), p.tasks[i]? = some t → t.key = key → t.phase.isActive = false) →
      p.Settled key) ∧
    (∀ (i : Nat) (t : Task) result, p.tasks[i]? = some t → t.key = key → t.phase.isActive = true →
      q.phase? i = some (.finished result) → q.Leaves key t.phase result) ∧
    (∀ m, moves[k]? = some m → (∀ t : Task, p.tasks[m.mover p]? = some t → t.key ≠ key) →
      q.entries.lookup key = p.entries.lookup key) ∧
    ∀ (i : Nat) (t : Task), p.tasks[i]? = some t → t.key = key → moves[k]? = some (.advance i) →
      (∀ line l, t.phase = .seeking → p.Holds key line l →
        q.phase? i = some (.connected line)) ∧
      (t.phase = .seeking → p.entries.lookup key = none →
        q.phase? i = some (.queued p.slots.length)) ∧
      ∀ slot, t.phase = .queued slot → q.phase? i = some
        (match ((Establishment.start S client.environment key.1).run p.generator).1 with
        | .ok establishment => .establishing slot establishment
        | .error e => .failing slot e) := by
  intro p q
  have hp : p.InOrder key := h.inOrder k
  obtain ⟨slotKeys, lineKeys, howned⟩ := after_owned S client g moves k
  refine ⟨hp.idle, ?ended, ?untouched, ?steps⟩
  case ended =>
    rintro i t result ht rfl hactive hresult
    have hended : p.phase? i ≠ some (.finished result) := by
      intro hbefore
      obtain ⟨t', ht', hphase⟩ := Option.map_eq_some_iff.mp hbefore
      obtain rfl := Option.some.inj (ht.symm.trans ht')
      rw [hphase] at hactive
      exact nomatch hactive
    obtain ⟨m, hm, hnext⟩ | hsame := after_transition S client g moves k
    case inr => exact absurd ((congrArg (fun p => p.phase? i) hsame).symm.trans hresult) hended
    by_cases hi : i = m.mover p
    case neg =>
      rw [phase?, hnext.tasks hi] at hresult
      exact absurd hresult hended
    subst hi
    have hkept : ∀ j, m ≠ .cancel j := by
      rintro j rfl
      exact h.kept k j t hm ht rfl
    have hreply : ∀ j now e judge, m = .deliver j now (.error e) judge →
        ∀ fault, e ≠ .codec fault := by
      rintro j now e judge rfl
      exact h.transport j now e judge (List.mem_of_getElem? hm)
    obtain ⟨t', ht', -, hproceeds⟩ := hnext.proceeds howned (after_justified k)
      (after_distinct k) hkept hreply ht (hp.course _ t ht rfl)
    obtain ⟨t₁, ht₁, hphase⟩ := Option.map_eq_some_iff.mp hresult
    obtain rfl := Option.some.inj (ht'.symm.trans ht₁)
    refine (hproceeds.leaves result hphase).resolve_left fun hbefore => hended ?_
    exact Option.map_eq_some_iff.mpr ⟨t, ht, hbefore⟩
  case untouched =>
    intro m hm hother
    obtain ⟨m', hm', hnext⟩ | hsame := after_transition S client g moves k
    · obtain rfl := Option.some.inj (hm.symm.trans hm')
      exact hnext.lookup_eq howned hother
    · exact congrArg (fun p => p.entries.lookup key) hsame
  case steps =>
    rintro i t ht rfl hm
    have hnext : q = step S client p (.advance i) := after_succ hm
    rw [hnext]
    refine ⟨fun line l hphase => step_finds S client ht hphase, step_opens S client ht,
      fun slot hphase => step_begins S client ht hphase ?_⟩
    have hcourse := hp.course i t ht rfl
    rw [hphase] at hcourse
    exact hcourse

/-! ## A call that fails, and the next one -/

/-- A task enters by this move. -/
def Move.enters : Move → Bool
  | .submit .. => true
  | _ => false

theorem Transition.length_tasks {m : Move} (h : Transition S client p m q) :
    q.tasks.length ≤ p.tasks.length + [m].countP Move.enters := by
  cases h with
  | idle => exact Nat.le_add_right _ _
  | submitted => exact List.length_append.le
  | _ => exact (List.length_modify ..).le

variable {S client} in
theorem key_succ {g : ρ} {moves : List Move} {i k : Nat} {t t' : Task}
    (ht : (after S client g moves k).tasks[i]? = some t)
    (ht' : (after S client g moves (k + 1)).tasks[i]? = some t') : t'.key = t.key := by
  obtain ⟨m, -, h⟩ | h := after_transition S client g moves k
  · exact h.key_eq ht ht'
  · rw [h] at ht'
    exact congrArg Task.key (Option.some.inj (ht'.symm.trans ht))

/-- There are no more tasks than have entered. -/
theorem length_after_le (g : ρ) (moves : List Move) (k : Nat) :
    (after S client g moves k).tasks.length ≤ (moves.take k).countP Move.enters := by
  induction k with
  | zero => exact Nat.zero_le _
  | succ k ih =>
    rw [List.take_add_one, List.countP_append]
    obtain ⟨m, hm, h⟩ | h := after_transition S client g moves k
    · rw [hm]
      exact h.length_tasks.trans (Nat.add_le_add_right ih _)
    · rw [h]
      exact Nat.le_add_right_of_le ih

/-- A task that has ended stays so. -/
theorem ended_after {g : ρ} {moves : List Move} {i k n : Nat} {t : Task} (hkn : k ≤ n)
    (hkept : ∀ j, .cancel j ∉ moves) (ht : (after S client g moves k).tasks[i]? = some t)
    (hended : t.phase.isActive = false) : (after S client g moves n).tasks[i]? = some t := by
  induction hkn with
  | refl => exact ht
  | @step n _ ih =>
    obtain ⟨m, hm, h⟩ | h := after_transition S client g moves n
    · by_cases hi : i = m.mover (after S client g moves n)
      · subst hi
        have hsame := h.eq_of_ended (fun j hj => hkept j (hj ▸ List.mem_of_getElem? hm)) ih hended
        rwa [hsame]
      · rwa [h.tasks hi]
    · rwa [h]

/-- The reply to a task that waits for none is not looked at. -/
theorem step_unasked {i slot : Nat} {t : Task} {e : ClientError} (ht : p.tasks[i]? = some t)
    (hphase : t.phase = .failing slot e) (now : UInt64) (reply : Outer.Reply) (judge : Judge) :
    step S client p (.deliver i now reply judge) = p := by
  rw [step, deliver, ht]
  dsimp only
  rw [hphase]
  rfl

/-- A handshake whose first request is not answered fails. -/
theorem step_unheard {i slot : Nat} {t : Task} {establishment : Establishment}
    {initiator : Initiator} (ht : p.tasks[i]? = some t)
    (hphase : t.phase = .establishing slot establishment)
    (hstage : establishment.stage = .message2 initiator) (now : UInt64) (error : ClientError)
    (judge : Judge) :
    (step S client p (.deliver i now (.error error) judge)).phase? i =
      some (.failing slot error) := by
  have hresume : (Establishment.resume S client.policy now establishment
      (.error error)).run.run p.generator = .done (.error error, p.generator) := by
    rw [Establishment.resume, hstage]
    rfl
  rw [step, deliver, ht]
  dsimp only
  rw [hphase]
  dsimp only
  rw [hresume]
  exact (phase?_setPhase ht _ _).trans (if_pos rfl)

/-- A handshake that cannot be started fails, and so does one whose first request is not
answered. -/
theorem step_unanswered {i slot : Nat} {t : Task} (ht : p.tasks[i]? = some t)
    (hphase : t.phase = .queued slot) (hguards : p.Guards i slot t.key) (now : UInt64)
    (error : ClientError) (judge : Judge) : ∃ e,
      (step S client (step S client p (.advance i))
        (.deliver i now (.error error) judge)).phase? i = some (.failing slot e) := by
  have hbegins := step_begins S client ht hphase hguards
  rcases hstart : (Establishment.start S client.environment t.key.1).run p.generator with
    ⟨e | establishment, g⟩ <;> rw [hstart] at hbegins <;>
    obtain ⟨t', ht', hphase'⟩ := Option.map_eq_some_iff.mp hbegins
  · refine ⟨e, ?_⟩
    rw [step_unasked S client ht' hphase']
    exact hbegins
  · obtain ⟨initiator, hstage⟩ := Establishment.start_stage hstart
    exact ⟨error, step_unheard S client ht' hphase' hstage now error judge⟩

/-- A task whose handshake failed ends with that error. -/
theorem step_fails {i slot : Nat} {t : Task} {e : ClientError} (ht : p.tasks[i]? = some t)
    (hphase : t.phase = .failing slot e) :
    (step S client p (.advance i)).phase? i = some (.finished (.error e)) := by
  have hstep : step S client p (.advance i) =
      ((p.dropSlot t.key slot).turnSlot slot Turn.release).setPhase i (.finished (.error e)) := by
    rw [step, advance, ht, Option.bind_eq_bind, Option.bind_some, hphase]
    rfl
  rw [hstep]
  exact (phase?_setPhase (p := (p.dropSlot t.key slot).turnSlot slot _) ht _ _).trans (if_pos rfl)

/-- A call whose handshake is not answered, and another one after it. -/
def unanswered : List Move :=
  [.submit "https://host" "X1" (.call (World.sampleRequest "/first")), .advance 0, .advance 0,
    .deliver 0 0 (.error (.transport "down")) World.silent, .advance 0,
    .submit "https://host" "X1" (.call (World.sampleRequest "/second")), .advance 1]

theorem after_unanswered (g : ρ) : ∃ t e,
    (after S World.sampleClient g unanswered 4).tasks[0]? = some t ∧
    t.key = ("https://host/", "X1") ∧ t.phase = .failing 0 e ∧
    (after S World.sampleClient g unanswered 5).phase? 0 = some (.finished (.error e)) := by
  have hqueued : (after S World.sampleClient g unanswered 2).tasks[0]? = some {
    key := ("https://host/", "X1"), errand := .call (World.sampleRequest "/first")
    phase := .queued 0 } := rfl
  obtain ⟨e, hfailing⟩ := step_unanswered S World.sampleClient hqueued rfl ⟨rfl, _, rfl, rfl, rfl⟩
    0 (.transport "down") World.silent
  have hbegun := step_begins S World.sampleClient hqueued rfl ⟨rfl, _, rfl, rfl, rfl⟩
  rw [← after_succ (m := .advance 0) rfl] at hbegun hfailing
  rw [← after_succ (m := .deliver 0 0 (.error (.transport "down")) World.silent) rfl] at hfailing
  obtain ⟨t', ht', -⟩ := Option.map_eq_some_iff.mp hbegun
  obtain ⟨t, ht, hphase⟩ := Option.map_eq_some_iff.mp hfailing
  refine ⟨t, e, ht, (key_succ ht' ht).trans (key_succ hqueued ht'), hphase, ?_⟩
  rw [after_succ (m := .advance 0) rfl]
  exact step_fails S World.sampleClient ht hphase

/-- The second call enters when the first one has ended. -/
theorem unanswered_sequential (g : ρ) :
    Sequential S World.sampleClient ("https://host/", "X1") g unanswered where
  alone := by
    intro k i j t t' ht ht' _ _ hactive hactive'
    have hi := (List.getElem?_eq_some_iff.mp ht).1
    have hj := (List.getElem?_eq_some_iff.mp ht').1
    have hlength := length_after_le S World.sampleClient g unanswered k
    obtain hk | hk := Nat.lt_or_ge k 5
    · have hone : ∀ k < 5, (unanswered.take k).countP Move.enters ≤ 1 := by decide
      have hbound := hlength.trans (hone k hk)
      omega
    · have htwo : (unanswered.take k).countP Move.enters ≤ 2 :=
        ((List.take_sublist k unanswered).countP_le).trans (by decide)
      obtain ⟨-, e, -, -, -, hfinished⟩ := after_unanswered S g
      obtain ⟨t₀, ht₀, hphase⟩ := Option.map_eq_some_iff.mp hfinished
      have hended : t₀.phase.isActive = false := by rw [hphase]; rfl
      have hfirst := ended_after S World.sampleClient hk (by simp [unanswered]) ht₀ hended
      have hzero : ∀ {n : Nat} {t₁ : Task},
          (after S World.sampleClient g unanswered k).tasks[n]? = some t₁ →
          t₁.phase.isActive = true → n ≠ 0 := by
        rintro n t₁ ht₁ hactive₁ rfl
        obtain rfl := Option.some.inj (hfirst.symm.trans ht₁)
        exact nomatch hended.symm.trans hactive₁
      have hi' := hzero ht hactive
      have hj' := hzero ht' hactive'
      omega
  kept := by
    intro k i t hm
    have hmem := List.mem_of_getElem? hm
    simp [unanswered] at hmem
  transport := by
    intro i now e judge hmem fault
    simp only [unanswered, List.mem_cons, reduceCtorEq, false_or, List.not_mem_nil, or_false,
      Move.deliver.injEq, Except.error.injEq] at hmem
    obtain ⟨-, -, rfl, -⟩ := hmem
    exact nofun

/-- The first call leaves nothing, and the second one opens a slot of its own. -/
theorem succession_unanswered :
    let key : Key := ("https://host/", "X1")
    let p k := after Suite.standard World.sampleClient (Generator.ofSeed 7) unanswered k
    Sequential Suite.standard World.sampleClient key (Generator.ofSeed 7) unanswered ∧
      (∃ e, (p 5).phase? 0 = some (.finished (.error e))) ∧ (p 5).entries.lookup key = none ∧
      (p 7).phase? 1 = some (.queued (p 6).slots.length) := by
  intro key p
  have h : Sequential Suite.standard World.sampleClient key (Generator.ofSeed 7) unanswered :=
    unanswered_sequential _ _
  obtain ⟨t, e, ht, hkey, hphase, hfinished⟩ :=
    after_unanswered Suite.standard (Generator.ofSeed 7)
  -- the first call
  have hleaves := (succession h 4).2.1 0 t (.error e) ht hkey (by rw [hphase]; rfl) hfinished
  rw [hphase] at hleaves
  have hnone := hleaves.gone e rfl fun _ hhas => hhas.elim
  refine ⟨h, ⟨e, hfinished⟩, hnone, ?_⟩
  -- the second call is the second task
  obtain ⟨t₀, ht₀, -⟩ := Option.map_eq_some_iff.mp hfinished
  have hlength : (p 5).tasks.length = 1 :=
    le_antisymm (length_after_le _ _ _ unanswered 5) (List.getElem?_eq_some_iff.mp ht₀).1
  have henters : ∀ q : Pool Generator, (q.submit "https://host" "X1"
      (.call (World.sampleRequest "/second"))).tasks = q.tasks ++ [{
        key, errand := .call (World.sampleRequest "/second"), phase := .seeking }] := fun _ => rfl
  have hsecond : (p 6).tasks[1]? = some {
      key, errand := .call (World.sampleRequest "/second"), phase := .seeking } := by
    have hnext : p 6 = step Suite.standard World.sampleClient (p 5) (.submit "https://host" "X1"
        (.call (World.sampleRequest "/second"))) := after_succ rfl
    rw [hnext, step, henters, ← hlength]
    exact List.getElem?_concat_length
  have hstill := (succession h 5).2.2.1 _ rfl fun t ht =>
    absurd ((List.getElem?_eq_none (Nat.le_refl (p 5).tasks.length)).symm.trans ht).symm
      (Option.some_ne_none t)
  exact ((succession h 6).2.2.2 1 _ hsecond rfl rfl).2.1 rfl (hstill.trans hnone)

end Pool

end SealedTunnel
