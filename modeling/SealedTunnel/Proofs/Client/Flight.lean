import Mathlib.Data.List.Perm.Subperm
import SealedTunnel.Proofs.Client.Slots

/-!
# One handshake for all

Tasks that want a channel of the same key share one handshake, in any order of steps, with any
outcome, and whoever is given up.

* `Pool.failure?`, `Pool.report?` — a handshake of a task fails; a task ends because of that.
* `Pool.collect` — what a run has of them, in order; `Pool.subperm_failures`.
* `Pool.Refuses`, `Pool.Ended` — a task ends with an error.
* `Pool.Stands` — a task has found a slot, and stays with it.
* `Pool.Looked`, `Pool.Obtains` — a task looks its key up, and gets a line by that.
* `Pool.Evicts` — a slot with a line is taken out of the map.
* `Pool.single_flight` — there is one handshake for a key at any time, a task fails by its own
  handshake only, and who looks a key up without an eviction in between gets the same line.
-/

namespace SealedTunnel

/-- The error of a task in this phase, if its handshake has failed and it has not ended yet. -/
def Phase.failing? : Phase → Option ClientError
  | .failing _ e => some e
  | _ => none

/-- Whether a task in this phase uses a line to exchange messages. -/
def Phase.exchanges : Phase → Bool
  | .ready .. | .exchanging .. | .evicting .. => true
  | _ => false

/-- Whether a task in this phase has yet to get a line. -/
def Phase.connects : Phase → Bool
  | .seeking | .queued _ | .establishing .. | .failing .. => true
  | _ => false

/-- A task has got a line for its key, and wants nothing else of it or goes on to use it. -/
def Task.Returned (t : Task) (line : Nat) : Prop :=
  t.phase = .connected line ∨ t.phase = .finished (.ok (.line line)) ∧ t.errand = .connect

/-- A task that has found a slot waits there, has its line, or is past wanting it. -/
def Task.Fits (t : Task) (slot : Nat) (line? : Option Nat) : Prop :=
  match t.phase with
  | .seeking => False
  | .queued s | .establishing s _ | .failing s _ => s = slot
  | .connected line => line? = some line
  | .finished (.ok (.line line)) => t.errand = .connect → line? = some line
  | _ => True

/-- A task has found a slot and wants its line, or has it. -/
def Task.Pursues (t : Task) : Prop :=
  match t.phase with
  | .queued _ | .establishing .. | .failing .. | .connected _ => True
  | .finished (.ok (.line _)) => t.errand = .connect
  | _ => False

theorem Task.Returned.pursues {t : Task} {line : Nat} (h : t.Returned line) : t.Pursues := by
  obtain h | ⟨h, herrand⟩ := h
  · simp only [Pursues, h]
  · simp only [Pursues, h, herrand]

theorem Task.Pursues.ne_seeking {t : Task} (h : t.Pursues) : t.phase ≠ .seeking := by
  intro hphase
  simp only [Pursues, hphase] at h

theorem Task.Fits.line?_eq {t : Task} {slot line : Nat} {line? : Option Nat}
    (h : t.Fits slot line?) (hline : t.Returned line) : line? = some line := by
  obtain hphase | ⟨hphase, herrand⟩ := hline
  · simpa only [Fits, hphase] using h
  · simp only [Fits, hphase] at h
    exact h herrand

/-- It stays so while the slot keeps its line. -/
theorem Task.Fits.mono {t : Task} {slot : Nat} {line? line?' : Option Nat} (h : t.Fits slot line?)
    (hkeep : ∀ line, line? = some line → line?' = some line) : t.Fits slot line?' := by
  obtain ⟨key, errand, phase⟩ := t
  cases phase with
  | connected line => exact hkeep line h
  | finished result =>
    obtain e | (line | response) := result
    · exact trivial
    · exact fun herrand => hkeep line (h herrand)
    · exact trivial
  | _ => exact h

namespace Pool

variable {ρ τ : Type} {S : Suite ρ} {client : Client τ} {p q : Pool ρ}

/-! ## Failures -/

/-- An error, and whose it is. -/
structure Failure where
  /-- the task -/
  task : Nat
  /-- the error -/
  error : ClientError
  deriving DecidableEq, Repr

variable (S client) in
/-- The handshake that fails by a move. -/
def failure? (p : Pool ρ) : Move → Option Failure
  | .advance i => do
    let t ← p.tasks[i]?
    match t.phase with
    | .queued slot => do
      let s ← p.slots[slot]?
      if s.line = none ∧ s.turn.holder = some i ∧ p.entries.lookup t.key = some slot then
        match ((Establishment.start S client.environment t.key.1).run p.generator).1 with
        | .ok _ => none
        | .error e => some ⟨i, e⟩
      else none
    | _ => none
  | .deliver i now reply judge => do
    let t ← p.tasks[i]?
    match t.phase with
    | .establishing _ establishment =>
      match (((Establishment.resume S client.policy now establishment reply).run.run
        p.generator).under judge).1 with
      | .ok _ => none
      | .error e => some ⟨i, e⟩
    | _ => none
  | _ => none

/-- The error of a handshake that a task ends with by a move. -/
def report? (p : Pool ρ) : Move → Option Failure
  | .advance i => do
    let t ← p.tasks[i]?
    match t.phase with
    | .failing _ e => some ⟨i, e⟩
    | _ => none
  | _ => none

variable (S client) in
/-- What the moves of a run are, of one kind, in order. -/
def collect {α : Type} (f : Pool ρ → Move → Option α) (p : Pool ρ) : List Move → List α
  | [] => []
  | m :: moves => (f p m).toList ++ collect f (step S client p m) moves

/-- The error of a task whose handshake has failed and which has not ended yet. -/
def failing? (p : Pool ρ) (i : Nat) : Option ClientError := p.phase? i >>= Phase.failing?

theorem failing?_setPhase {i : Nat} {task : Task} (h : p.tasks[i]? = some task) (phase : Phase)
    (j : Nat) : (p.setPhase i phase).failing? j =
      if j = i then phase.failing? else p.failing? j := by
  rw [failing?, phase?_setPhase h]
  split
  · rfl
  · rfl

theorem failing?_of_phase {i : Nat} {task : Task} (h : p.tasks[i]? = some task) :
    p.failing? i = task.phase.failing? := by
  rw [failing?, phase?, h]
  rfl

/-- A task whose handshake has failed was in that state before, or its handshake fails now. -/
theorem Transition.failing {m : Move} (h : Transition S client p m q) {i : Nat} {e : ClientError}
    (he : q.failing? i = some e) : p.failing? i = some e ∨ failure? S client p m = some ⟨i, e⟩ := by
  by_cases hi : i = m.mover p
  case neg =>
    rw [failing?, phase?, h.tasks hi] at he
    exact .inl he
  subst hi
  obtain ⟨phase, hphase, hfailing⟩ := Option.bind_eq_some_iff.mp he
  obtain ⟨t, ht, rfl⟩ := Option.map_eq_some_iff.mp hphase
  cases h with
  | idle => exact .inl he
  | submitted hnew =>
    obtain h | ⟨e', h⟩ := phase_of_submitted hnew ht
    · rw [h] at hfailing
      cases hfailing
    · rw [h] at hfailing
      cases hfailing
  | @unstarted _ _ _ _ _ g htask hqueued hs hline hholder hlookup hstart =>
    obtain rfl := eq_of_setPhase (p := { p with generator := g }) htask ht
    obtain rfl := Option.some.inj hfailing
    refine .inr ?_
    simp [failure?, htask, hqueued, hs, hline, hholder, hlookup, hstart, Move.mover]
  | @broken _ _ _ _ _ _ _ _ g htask hestablishing hresume =>
    obtain rfl := eq_of_setPhase (p := { p with generator := g }) htask ht
    obtain rfl := Option.some.inj hfailing
    refine .inr ?_
    simp [failure?, htask, hestablishing, hresume, Move.mover]
  | found htask | joined htask | opened htask | handed htask | began htask | restarted htask
  | cleared htask | joinedLine htask | unwritten htask | written htask | sent htask | unsent htask
  | evicted htask | continued htask | established htask | received htask | lost htask
  | leftSlot htask | leftLine htask | left htask =>
    obtain rfl := eq_of_setPhase htask ht
    cases hfailing

variable (S client) in
/-- A task that ends because its handshake failed is past that. -/
theorem step_report {m : Move} {i : Nat} {e : ClientError} (h : p.report? m = some ⟨i, e⟩) :
    p.failing? i = some e ∧
      ∀ j, (step S client p m).failing? j = if j = i then none else p.failing? j := by
  cases m with
  | advance i' =>
    obtain ⟨task, htask, h⟩ := Option.bind_eq_some_iff.mp h
    cases hphase : task.phase with
    | failing slot e' =>
      rw [hphase] at h
      obtain ⟨rfl, rfl⟩ := Failure.mk.inj (Option.some.inj h)
      have hstep : step S client p (.advance i') =
          ((p.dropSlot task.key slot).turnSlot slot Turn.release).setPhase i'
            (.finished (.error e')) := by
        simp [step, advance, htask, hphase]
      refine ⟨?_, fun j => ?_⟩
      · rw [failing?_of_phase htask, hphase]
        rfl
      · rw [hstep, failing?_setPhase (p := (p.dropSlot task.key slot).turnSlot slot _) htask]
        rfl
    | _ =>
      rw [hphase] at h
      cases h
  | _ => cases h

/-- How often a task is about to report an error. -/
def pending (p : Pool ρ) (x : Failure) : Nat := if p.failing? x.task = some x.error then 1 else 0

variable (S client) in
/-- What is reported or about to be after a move has failed in it, or was about to be before. -/
theorem count_step (p : Pool ρ) (m : Move) (x : Failure) :
    (p.report? m).toList.count x + (step S client p m).pending x ≤
      (failure? S client p m).toList.count x + p.pending x := by
  cases hreport : p.report? m with
  | some y =>
    obtain ⟨hfailing, hstep⟩ := step_report S client hreport
    simp only [Option.toList_some, List.count_singleton, pending, hstep]
    by_cases hx : y = x
    · subst hx
      simp [hfailing]
    · have hpending :
          (if (if x.task = y.task then none else p.failing? x.task) = some x.error then 1 else 0) ≤
            if p.failing? x.task = some x.error then 1 else 0 := by
        by_cases hi : x.task = y.task <;> simp [hi]
      simp only [beq_iff_eq, if_neg hx]
      omega
  | none =>
    simp only [Option.toList_none, List.count_nil, pending]
    by_cases hfailing : (step S client p m).failing? x.task = some x.error
    · obtain h | h := (step_transition S client p m).failing hfailing
      · simp [hfailing, h]
      · simp [hfailing, h]
    · simp [hfailing]

/-- Over a run, every error that is reported comes from a handshake of the same task that failed. -/
theorem count_collect (p : Pool ρ) (moves : List Move) (x : Failure) :
    (collect S client report? p moves).count x ≤
      (collect S client (failure? S client) p moves).count x + p.pending x := by
  induction moves generalizing p with
  | nil => exact Nat.zero_le _
  | cons m moves ih =>
    have hstep := count_step S client p m x
    have hrest := ih (step S client p m)
    simp only [collect, List.count_append]
    omega

theorem subperm_failures (g : ρ) (moves : List Move) :
    (collect S client report? (empty g) moves).Subperm
      (collect S client (failure? S client) (empty g) moves) := by
  refine List.subperm_iff_count.mpr fun x => ?_
  exact count_collect (empty g) moves x

/-- A task ends with an error before it has a line. -/
def Refuses (p q : Pool ρ) (x : Failure) : Prop :=
  ∃ t t' : Task, p.tasks[x.task]? = some t ∧ t.phase.connects = true ∧
    q.tasks[x.task]? = some t' ∧ t'.phase = .finished (.error x.error)

theorem Refuses.ne {x : Failure} : ¬ Refuses p p x := by
  rintro ⟨t, t', ht, hconnects, ht', hphase⟩
  obtain rfl := Option.some.inj (ht.symm.trans ht')
  rw [hphase] at hconnects
  exact nomatch hconnects

/-- It reports a handshake of its own by that. -/
theorem Transition.refused {m : Move} {x : Failure} (h : Transition S client p m q)
    (hx : Refuses p q x) : p.report? m = some x := by
  obtain ⟨i, e⟩ := x
  obtain ⟨t, t', ht, hconnects, ht', hphase'⟩ := hx
  by_cases hi : i = m.mover p
  case neg => exact absurd ⟨t, t', ht, hconnects, h.tasks hi ▸ ht', hphase'⟩ Refuses.ne
  subst hi
  cases h with
  | idle => exact absurd ⟨t, t', ht, hconnects, ht', hphase'⟩ Refuses.ne
  | submitted =>
    have hbound : p.tasks.length < p.tasks.length := (List.getElem?_eq_some_iff.mp ht).1
    exact absurd hbound (Nat.lt_irrefl _)
  | cleared htask hphase =>
    obtain rfl := eq_of_setPhase htask ht'
    obtain rfl := Except.error.inj (Phase.finished.inj hphase')
    simp [report?, htask, hphase, Move.mover]
  | unwritten htask hphase | evicted htask hphase | received htask hphase =>
    -- these have a line
    obtain rfl := Option.some.inj (htask.symm.trans ht)
    rw [hphase] at hconnects
    exact nomatch hconnects
  | found htask | joined htask | opened htask | handed htask | began htask | unstarted htask
  | restarted htask | joinedLine htask | written htask | sent htask | unsent htask
  | continued htask | established htask | broken htask | lost htask | leftSlot htask
  | leftLine htask | left htask =>
    obtain rfl := eq_of_setPhase htask ht'
    exact nomatch hphase'

/-! ## Tasks that want a line -/

/-- Tasks that only want a line never use one. -/
def Plain (p : Pool ρ) : Prop :=
  ∀ (i : Nat) (t : Task), p.tasks[i]? = some t → t.errand = .connect → t.phase.exchanges = false

theorem Plain.step {m : Move} (hp : p.Plain) (h : Transition S client p m q) : q.Plain := by
  intro i t ht herrand
  by_cases hi : i = m.mover p
  case neg => exact hp i t (h.tasks hi ▸ ht) herrand
  subst hi
  cases h with
  | idle => exact hp _ t ht herrand
  | submitted hphase =>
    obtain h | ⟨e, h⟩ := phase_of_submitted hphase ht <;> rw [h] <;> rfl
  | written htask hphase hcall =>
    obtain rfl := eq_of_setPhase (p := p.turnLine _ _) htask ht
    exact nomatch hcall.symm.trans herrand
  | sent htask hphase =>
    obtain rfl := eq_of_setPhase (p := { p with generator := _ }.updateLine _ _) htask ht
    exact nomatch hphase ▸ hp _ _ htask herrand
  | unsent htask hphase =>
    obtain rfl := eq_of_setPhase (p := { p with generator := _ }.turnLine _ _) htask ht
    exact nomatch hphase ▸ hp _ _ htask herrand
  | lost htask hphase =>
    obtain rfl := eq_of_setPhase (p := p.turnLine _ _) htask ht
    exact nomatch hphase ▸ hp _ _ htask herrand
  | found htask | joined htask | opened htask | handed htask | began htask | unstarted htask
  | restarted htask | cleared htask | joinedLine htask | unwritten htask | evicted htask
  | continued htask | established htask | broken htask | received htask | leftSlot htask
  | leftLine htask | left htask =>
    obtain rfl := eq_of_setPhase htask ht
    rfl

theorem empty_plain (g : ρ) : Plain (empty g) := fun _ _ h => nomatch h

variable (S client) in
theorem run_plain (hp : p.Plain) (moves : List Move) : (run S client p moves).Plain := by
  induction moves generalizing p with
  | nil => exact hp
  | cons m moves ih => exact ih (hp.step (step_transition S client p m))

/-- A task that wants a line has ended with an error. -/
def Ended (p : Pool ρ) (x : Failure) : Prop :=
  ∃ t : Task, p.tasks[x.task]? = some t ∧ t.errand = .connect ∧
    t.phase = .finished (.error x.error)

/-- It ends by a handshake that failed, or enters without an endpoint. -/
theorem Transition.ended {m : Move} {x : Failure} (hp : p.Plain) (h : Transition S client p m q)
    (hx : q.Ended x) : p.Ended x ∨ p.report? m = some x ∨
      ∃ endpoint subject errand, m = .submit endpoint subject errand := by
  obtain ⟨i, e⟩ := x
  obtain ⟨t, ht, herrand, hphase⟩ := hx
  by_cases hi : i = m.mover p
  case neg => exact .inl ⟨t, h.tasks hi ▸ ht, herrand, hphase⟩
  subst hi
  cases h with
  | idle => exact .inl ⟨t, ht, herrand, hphase⟩
  | submitted => exact .inr (.inr ⟨_, _, _, rfl⟩)
  | cleared htask hfailing =>
    obtain rfl := eq_of_setPhase (p := (p.dropSlot _ _).turnSlot _ _) htask ht
    obtain rfl := Except.error.inj (Phase.finished.inj hphase)
    refine .inr (.inl ?_)
    simp [report?, htask, hfailing, Move.mover]
  | unwritten htask hconnected hcall =>
    obtain rfl := eq_of_setPhase htask ht
    exact nomatch hcall.symm.trans herrand
  | evicted htask hevicting =>
    obtain rfl := eq_of_setPhase (p := p.evict _ _) htask ht
    exact nomatch hevicting ▸ hp _ _ htask herrand
  | received htask hexchanging =>
    obtain rfl := eq_of_setPhase (p := (p.turnLine _ _).updateLine _ _) htask ht
    exact nomatch hexchanging ▸ hp _ _ htask herrand
  | found htask | joined htask | opened htask | handed htask | began htask | unstarted htask
  | restarted htask | joinedLine htask | written htask | sent htask | unsent htask
  | continued htask | established htask | broken htask | lost htask | leftSlot htask
  | leftLine htask | left htask =>
    obtain rfl := eq_of_setPhase htask ht
    exact nomatch hphase

/-- A task that has ended with an error as it enters has no endpoint. -/
theorem submit_ended {x : Failure} {endpoint subject : String} {errand : Errand}
    (hx : (p.submit endpoint subject errand).Ended x) :
    p.Ended x ∨ errand = .connect ∧ destination endpoint = .error x.error := by
  obtain ⟨t, ht, herrand, hphase⟩ := hx
  by_cases hlt : x.task < p.tasks.length
  · refine .inl ⟨t, ?_, herrand, hphase⟩
    simp only [submit] at ht
    rwa [List.getElem?_append_left hlt] at ht
  · have hlast : x.task = p.tasks.length := by
      have hbound := (List.getElem?_eq_some_iff.mp ht).1
      simp only [submit, List.length_append, List.length_singleton] at hbound
      omega
    rw [hlast] at ht
    simp only [submit, List.getElem?_concat_length] at ht
    obtain rfl := Option.some.inj ht
    cases hendpoint : destination endpoint with
    | ok uri =>
      rw [hendpoint] at hphase
      cases hphase
    | error e =>
      rw [hendpoint] at hphase herrand
      obtain rfl := Except.error.inj (Phase.finished.inj hphase)
      exact .inr ⟨herrand, rfl⟩

/-- A run ends tasks that want a line with errors of their own. -/
theorem ended_run (hp : p.Plain) (moves : List Move) {x : Failure}
    (hx : (run S client p moves).Ended x) : p.Ended x ∨ x ∈ collect S client report? p moves ∨
      ∃ endpoint subject, .submit endpoint subject .connect ∈ moves ∧
        destination endpoint = .error x.error := by
  induction moves generalizing p with
  | nil => exact .inl hx
  | cons m moves ih =>
    have h := step_transition S client p m
    obtain hx | hx | ⟨endpoint, subject, hmem, he⟩ := ih (hp.step h) hx
    · obtain hx | hreport | ⟨endpoint, subject, errand, rfl⟩ := h.ended hp hx
      · exact .inl hx
      · refine .inr (.inl (List.mem_append_left _ ?_))
        rw [hreport]
        exact List.mem_singleton.mpr rfl
      · obtain hx | ⟨rfl, he⟩ := submit_ended hx
        · exact .inl hx
        · exact .inr (.inr ⟨endpoint, subject, List.mem_cons_self, he⟩)
    · exact .inr (.inl (List.mem_append_right _ hx))
    · exact .inr (.inr ⟨endpoint, subject, List.mem_cons_of_mem _ hmem, he⟩)

/-! ## Look-ups -/

/-- A task has found a slot. -/
def Stands (p : Pool ρ) (i slot : Nat) : Prop :=
  ∃ t : Task, p.tasks[i]? = some t ∧ t.Fits slot (p.lineOf? slot)

theorem stands_setPhase {i slot : Nat} {task : Task} {phase : Phase}
    (htask : p.tasks[i]? = some task)
    (hfits : Task.Fits { task with phase } slot (p.lineOf? slot)) :
    (p.setPhase i phase).Stands i slot :=
  ⟨_, getElem?_setPhase htask phase, hfits⟩

/-- Who puts a line into a slot has it. -/
theorem stands_settle {i slot : Nat} {task : Task} {s : Slot} (htask : p.tasks[i]? = some task)
    (hs : p.slots[slot]? = some s) (connection : Connection) (session : Session) :
    (p.settle i slot connection session).Stands i slot := by
  have hsettled := getElem?_updateSlot hs slot fun _ =>
    { turn := .free, line := some p.lines.length }
  rw [if_pos rfl] at hsettled
  exact stands_setPhase htask (Option.bind_eq_some_iff.mpr ⟨_, hsettled, rfl⟩)

/-- A task that has found a slot stays with it until it looks again. -/
theorem Transition.stands {m : Move} (hg : p.Guarded) (hp : p.Plain)
    (h : Transition S client p m q) {i slot : Nat} (hstands : p.Stands i slot)
    (hseeking : q.phase? i ≠ some .seeking) : q.Stands i slot := by
  have hkeep : ∀ line, p.lineOf? slot = some line → q.lineOf? slot = some line :=
    fun line => (h.slotChange hg).lineOf?_eq
  obtain ⟨t, ht, hfits⟩ := hstands
  by_cases hi : i = m.mover p
  case neg => exact ⟨t, (h.tasks hi).trans ht, hfits.mono hkeep⟩
  subst hi
  cases h with
  | idle => exact ⟨t, ht, hfits⟩
  | submitted =>
    have hbound : p.tasks.length < p.tasks.length := (List.getElem?_eq_some_iff.mp ht).1
    exact absurd hbound (Nat.lt_irrefl _)
  | found htask hphase | joined htask hphase | opened htask hphase =>
    obtain rfl := Option.some.inj (htask.symm.trans ht)
    simp only [Task.Fits, hphase] at hfits
  | handed htask hphase hs hline =>
    obtain rfl := Option.some.inj (htask.symm.trans ht)
    simp only [Task.Fits, hphase] at hfits
    subst hfits
    refine stands_setPhase htask (hkeep _ ?_)
    rw [lineOf?, hs]
    exact hline
  | began htask hphase | unstarted htask hphase | continued htask hphase | broken htask hphase =>
    obtain rfl := Option.some.inj (htask.symm.trans ht)
    simp only [Task.Fits, hphase] at hfits
    exact stands_setPhase htask hfits
  | restarted htask =>
    refine absurd ?_ hseeking
    exact (phase?_setPhase (p := p.turnSlot _ _) htask _ _).trans (if_pos rfl)
  | joinedLine htask hphase =>
    obtain rfl := Option.some.inj (htask.symm.trans ht)
    simp only [Task.Fits, hphase] at hfits
    exact stands_setPhase htask fun _ => hkeep _ hfits
  | @established j slot' task establishment now reply judge connection session g htask hphase =>
    obtain rfl := Option.some.inj (htask.symm.trans ht)
    obtain ⟨s, hs, -⟩ := (hg.guards _ _ slot' htask (by rw [hphase]; rfl)).empty
    simp only [Task.Fits, hphase] at hfits
    subst hfits
    exact stands_settle (p := { p with generator := g }) htask hs connection session
  | @received _ _ _ _ _ _ _ _ _ _ _ result htask hphase =>
    -- a task that is answered wants more than a line
    obtain rfl := Option.some.inj (htask.symm.trans ht)
    refine stands_setPhase htask ?_
    obtain e | (line' | response) := result
    · exact trivial
    · intro herrand
      have hplain := hp _ _ htask herrand
      rw [hphase] at hplain
      cases hplain
    · exact trivial
  | cleared htask | unwritten htask | written htask | sent htask | unsent htask | evicted htask
  | lost htask | leftSlot htask | leftLine htask | left htask =>
    exact stands_setPhase htask trivial

variable (S client) in
/-- Who looks a key up finds the slot that the map has for it from then on, and had before if it
had one. -/
theorem stands_of_seek {i : Nat} {t : Task} (ht : p.tasks[i]? = some t)
    (hseeking : t.phase = .seeking) : ∃ slot,
      (step S client p (.advance i)).entries.lookup t.key = some slot ∧
      (step S client p (.advance i)).Stands i slot ∧
      ∀ slot', p.entries.lookup t.key = some slot' → slot' = slot := by
  have hstep : step S client p (.advance i) = p.seek i t.key := by
    rw [step, advance, ht, Option.bind_eq_bind, Option.bind_some, hseeking]
    rfl
  rw [hstep, seek]
  cases hlookup : p.entries.lookup t.key with
  | some slot =>
    refine ⟨slot, ?_⟩
    dsimp only
    cases hline : p.lineOf? slot with
    | some line => exact ⟨hlookup, stands_setPhase ht hline, fun _ h => (Option.some.inj h).symm⟩
    | none =>
      exact ⟨hlookup, stands_setPhase (p := p.turnSlot slot _) ht rfl,
        fun _ h => (Option.some.inj h).symm⟩
  | none =>
    refine ⟨p.slots.length, ?_, stands_setPhase ht rfl,
      fun _ h => absurd h.symm (Option.some_ne_none _)⟩
    show (p.entries ++ [(t.key, p.slots.length)]).lookup t.key = _
    rw [List.lookup_append, hlookup]
    simp

/-- A task that has found a slot did so before, or looks its key up now. -/
theorem Transition.pursues {m : Move} (hp : p.Plain) (h : Transition S client p m q) {i : Nat}
    {t : Task} (ht : q.tasks[i]? = some t) (hpursues : t.Pursues) :
    ∃ t', p.tasks[i]? = some t' ∧ t'.key = t.key ∧
      (t'.Pursues ∨ m = .advance i ∧ t'.phase = .seeking) := by
  by_cases hi : i = m.mover p
  case neg => exact ⟨t, h.tasks hi ▸ ht, rfl, .inl hpursues⟩
  subst hi
  cases h with
  | idle => exact ⟨t, ht, rfl, .inl hpursues⟩
  | submitted hphase =>
    obtain h | ⟨e, h⟩ := phase_of_submitted hphase ht <;> simp only [Task.Pursues, h] at hpursues
  | found htask hphase | joined htask hphase | opened htask hphase =>
    obtain rfl := eq_of_setPhase htask ht
    exact ⟨_, htask, rfl, .inr ⟨rfl, hphase⟩⟩
  | handed htask hphase | began htask hphase | unstarted htask hphase | continued htask hphase
  | established htask hphase | broken htask hphase | joinedLine htask hphase =>
    obtain rfl := eq_of_setPhase htask ht
    refine ⟨_, htask, rfl, .inl ?_⟩
    simp only [Task.Pursues, hphase]
  | @received _ _ _ _ _ _ _ _ _ _ _ result htask hphase =>
    obtain rfl := eq_of_setPhase htask ht
    obtain e | (line | response) := result
    · exact absurd hpursues id
    · exact nomatch hphase ▸ hp _ _ htask hpursues
    · exact absurd hpursues id
  | restarted htask | cleared htask | unwritten htask | written htask | sent htask | unsent htask
  | evicted htask | lost htask | leftSlot htask | leftLine htask | left htask =>
    obtain rfl := eq_of_setPhase htask ht
    exact absurd hpursues id

/-! ## Moments of a run -/

section Moments

variable (S client) (g : ρ) (moves : List Move)

/-- The pool after the first `k` moves of a run. -/
def after (k : Nat) : Pool ρ := run S client (empty g) (moves.take k)

/-- A task looks its key up with the move at `m`, and not again in the first `n` moves. -/
structure Looked (key : Key) (i m n : Nat) : Prop where
  /-- the task takes a step -/
  advances : moves[m]? = some (.advance i)
  /-- which is to look its key up -/
  seeking : ∃ t, (after S client g moves m).tasks[i]? = some t ∧ t.key = key ∧ t.phase = .seeking
  /-- the move is one of the first `n` -/
  earlier : m < n
  /-- it does not look again -/
  last : ∀ k, m < k → k ≤ n → (after S client g moves k).phase? i ≠ some .seeking

/-- A task has got a line after `n` moves, by looking its key up with the move at `m`. -/
structure Obtains (key : Key) (i line m n : Nat) : Prop
    extends Looked S client g moves key i m n where
  /-- it has the line -/
  gets : ∃ t, (after S client g moves n).tasks[i]? = some t ∧ t.Returned line

/-- The move at `k` takes a slot with a line out of the map. -/
def Evicts (key : Key) (k : Nat) : Prop :=
  ∃ slot, (after S client g moves k).entries.lookup key = some slot ∧
    (after S client g moves k).lineOf? slot ≠ none ∧
    (after S client g moves (k + 1)).entries.lookup key ≠ some slot

variable {S client g moves} in
theorem after_succ {k : Nat} {m : Move} (h : moves[k]? = some m) :
    after S client g moves (k + 1) = step S client (after S client g moves k) m := by
  simp only [after, List.take_add_one, h]
  rw [Option.toList_some, run, List.foldl_append]
  rfl

/-- A run goes on with its next move, if there is one. -/
theorem after_transition (k : Nat) :
    (∃ m, moves[k]? = some m ∧
      Transition S client (after S client g moves k) m (after S client g moves (k + 1))) ∨
    after S client g moves (k + 1) = after S client g moves k := by
  cases h : moves[k]? with
  | none => exact .inr (by simp only [after, List.take_add_one, h, Option.toList_none,
      List.append_nil])
  | some m => exact .inl ⟨m, rfl, after_succ h ▸ step_transition S client _ m⟩

theorem after_guarded (k : Nat) : (after S client g moves k).Guarded :=
  run_guarded S client (empty_guarded g) _

theorem after_plain (k : Nat) : (after S client g moves k).Plain :=
  run_plain S client (empty_plain g) _

theorem slotChange_after (k : Nat) :
    ∃ i, SlotChange (after S client g moves k) (after S client g moves (k + 1)) i := by
  obtain ⟨m, -, h⟩ | h := after_transition S client g moves k
  · exact ⟨_, h.slotChange (after_guarded S client g moves k)⟩
  · exact ⟨0, h ▸ .quiet rfl rfl⟩

variable {S client g moves}

/-- What every change of the slots keeps stays for the rest of a run. -/
theorem after_of_le {P : Pool ρ → Prop} (hkeep : ∀ {p q : Pool ρ} {i : Nat}, SlotChange p q i →
    P p → P q) {k n : Nat} (hkn : k ≤ n) (hk : P (after S client g moves k)) :
    P (after S client g moves n) := by
  induction hkn with
  | refl => exact hk
  | step _ ih =>
    obtain ⟨i, h⟩ := slotChange_after S client g moves _
    exact hkeep h ih

theorem lineOf?_after {slot line k n : Nat} (hkn : k ≤ n)
    (hk : (after S client g moves k).lineOf? slot = some line) :
    (after S client g moves n).lineOf? slot = some line :=
  after_of_le (P := fun p => p.lineOf? slot = some line) (fun h => h.lineOf?_eq) hkn hk

theorem Looked.succ {key : Key} {i m n : Nat} (h : Looked S client g moves key i m n)
    (hseeking : (after S client g moves (n + 1)).phase? i ≠ some .seeking) :
    Looked S client g moves key i m (n + 1) := by
  refine { h with earlier := Nat.lt_succ_of_lt h.earlier, last := fun k hk hkn => ?_ }
  obtain hkn | rfl := Nat.le_succ_iff.mp hkn
  · exact h.last k hk hkn
  · exact hseeking

/-- Whoever has found a slot has looked its key up. -/
theorem exists_looked {i n : Nat} {t : Task} (ht : (after S client g moves n).tasks[i]? = some t)
    (hpursues : t.Pursues) : ∃ m, Looked S client g moves t.key i m n := by
  induction n generalizing t with
  | zero => exact nomatch ht
  | succ n ih =>
    have hseeking : (after S client g moves (n + 1)).phase? i ≠ some .seeking := by
      rw [phase?, ht]
      exact fun h => hpursues.ne_seeking (Option.some.inj h)
    obtain ⟨m, hm, h⟩ | h := after_transition S client g moves n
    · obtain ⟨t', ht', hkey, hbefore | ⟨rfl, hphase⟩⟩ :=
        h.pursues (after_plain S client g moves n) ht hpursues
      · obtain ⟨m', hm'⟩ := ih ht' hbefore
        exact ⟨m', hkey ▸ hm'.succ hseeking⟩
      · refine ⟨n, hm, ⟨t', ht', hkey, hphase⟩, Nat.lt_succ_self n, fun k hk hkn => ?_⟩
        obtain rfl : k = n + 1 := Nat.le_antisymm hkn hk
        exact hseeking
    · obtain ⟨m, hm⟩ := ih (h ▸ ht) hpursues
      exact ⟨m, hm.succ hseeking⟩

/-- Whoever looks a key up stays with the slot found there. -/
theorem Looked.stands {key : Key} {i m n : Nat} (h : Looked S client g moves key i m n) :
    ∃ slot, (after S client g moves (m + 1)).entries.lookup key = some slot ∧
      (after S client g moves n).Stands i slot ∧
      ∀ slot', (after S client g moves m).entries.lookup key = some slot' → slot' = slot := by
  obtain ⟨t, ht, rfl, hphase⟩ := h.seeking
  obtain ⟨slot, hlookup, hstands, hsame⟩ := stands_of_seek S client ht hphase
  rw [← after_succ h.advances] at hlookup hstands
  refine ⟨slot, hlookup, ?_, hsame⟩
  have hrest : ∀ k, m + 1 ≤ k → k ≤ n → (after S client g moves k).Stands i slot := by
    intro k hmk
    induction hmk with
    | refl => exact fun _ => hstands
    | @step k hmk ih =>
      intro hkn
      have hbefore := ih (Nat.le_of_succ_le hkn)
      obtain ⟨m', -, hnext⟩ | hsame := after_transition S client g moves k
      · exact hnext.stands (after_guarded S client g moves k) (after_plain S client g moves k)
          hbefore (h.last _ (Nat.lt_succ_of_lt hmk) hkn)
      · exact hsame ▸ hbefore
  exact hrest n h.earlier (Nat.le_refl n)

/-- A slot that gets a line stays in the map until then, and until it is evicted. -/
theorem lookup_after {key : Key} {slot line k m n : Nat} (hkm : k ≤ m) (hmn : m ≤ n)
    (hk : (after S client g moves k).entries.lookup key = some slot)
    (hn : (after S client g moves n).lineOf? slot = some line)
    (hkept : ∀ j, k ≤ j → j < m → ¬ Evicts S client g moves key j) :
    (after S client g moves m).entries.lookup key = some slot := by
  induction hkm with
  | refl => exact hk
  | @step m hkm ih =>
    have hm := ih (Nat.le_of_succ_le hmn) fun j hkj hjm => hkept j hkj (Nat.lt_succ_of_lt hjm)
    obtain ⟨i, h⟩ := slotChange_after S client g moves m
    obtain hnext | hline | hdead := h.lookup (after_guarded S client g moves m) hm
    · exact hnext
    · by_contra hgone
      exact hkept m hkm (Nat.lt_succ_self m) ⟨slot, hm, hline, hgone⟩
    · -- a slot that is gone without a line gets none
      have hempty := (after_of_le (P := fun p => p.Dead slot) (fun h => h.dead) hmn hdead).empty
      exact nomatch hempty.symm.trans hn

/-- Tasks that look the same key up get the same line, if nothing is evicted in between. -/
theorem Obtains.line_eq {key : Key} {i i' line line' m m' n n' : Nat}
    (h : Obtains S client g moves key i line m n)
    (h' : Obtains S client g moves key i' line' m' n') (hm : m ≤ m')
    (hkept : ∀ k, m < k → k < m' → ¬ Evicts S client g moves key k) : line = line' := by
  obtain ⟨slot, hslot, ⟨t, ht, hfits⟩, -⟩ := h.stands
  obtain ⟨slot', hslot', ⟨t', ht', hfits'⟩, hsame⟩ := h'.stands
  -- the line that each has is in its slot at the end
  have hline : (after S client g moves n).lineOf? slot = some line := by
    obtain ⟨t₁, ht₁, hreturned⟩ := h.gets
    obtain rfl := Option.some.inj (ht.symm.trans ht₁)
    exact hfits.line?_eq hreturned
  have hline' : (after S client g moves n').lineOf? slot' = some line' := by
    obtain ⟨t₁, ht₁, hreturned⟩ := h'.gets
    obtain rfl := Option.some.inj (ht'.symm.trans ht₁)
    exact hfits'.line?_eq hreturned
  have heq : slot = slot' := by
    obtain hlt | rfl := Nat.lt_or_eq_of_le hm
    · refine hsame slot (lookup_after (n := max n m') hlt (Nat.le_max_right n m') hslot
        (lineOf?_after (Nat.le_max_left n m') hline) fun k hk => hkept k hk)
    · exact Option.some.inj (hslot.symm.trans hslot')
  subst heq
  have hend := lineOf?_after (Nat.le_max_left n n') hline
  have hend' := lineOf?_after (Nat.le_max_right n n') hline'
  exact Option.some.inj (hend.symm.trans hend')

end Moments

/-! ## All together -/

/-- A task does a handshake in a slot for a key. -/
def Establishes (p : Pool ρ) (i slot : Nat) (key : Key) : Prop :=
  ∃ t : Task, p.tasks[i]? = some t ∧ t.key = key ∧
    ∃ establishment, t.phase = .establishing slot establishment

theorem Guarded.establishes (hp : p.Guarded) {i slot : Nat} {key : Key}
    (h : p.Establishes i slot key) : p.Guards i slot key := by
  obtain ⟨t, ht, rfl, establishment, hphase⟩ := h
  exact hp.guards i t slot ht (by rw [hphase]; rfl)

/-- Whatever tasks come, in whatever order they move, however their handshakes end, and whoever is
given up: at any time there is one handshake for a key, in the slot that the map has for it. A task
that ends with an error before it has a line reports a handshake of its own that failed, and all
reports are of failed handshakes, one each; a task that wants no more than a line ends with no
error but such a report, unless it had no endpoint. Whoever has a line has looked its key up, and
those who look the same key up get the same line, if no line of that key is evicted between the
look-ups. A task that waits may come back with a line that is evicted by then, so what happens in
between counts from its look-up on, and not from its end. -/
theorem single_flight (S : Suite ρ) (client : Client τ) (g : ρ) (moves : List Move) :
    (∀ i slot key, (run S client (empty g) moves).Establishes i slot key →
      (run S client (empty g) moves).entries.lookup key = some slot ∧
      ∀ j slot', (run S client (empty g) moves).Establishes j slot' key → j = i) ∧
    ((∀ k x, Refuses (after S client g moves k) (after S client g moves (k + 1)) x →
      ∃ m, moves[k]? = some m ∧ (after S client g moves k).report? m = some x) ∧
    (∀ x, (run S client (empty g) moves).Ended x →
      x ∈ collect S client report? (empty g) moves ∨
      ∃ endpoint subject, .submit endpoint subject .connect ∈ moves ∧
        destination endpoint = .error x.error) ∧
    (collect S client report? (empty g) moves).Subperm
      (collect S client (failure? S client) (empty g) moves)) ∧
    (∀ i n t line, (after S client g moves n).tasks[i]? = some t → t.Returned line →
      ∃ m, Obtains S client g moves t.key i line m n) ∧
    ∀ key i i' line line' m m' n n', Obtains S client g moves key i line m n →
      Obtains S client g moves key i' line' m' n' → m ≤ m' →
      (∀ k, m < k → k < m' → ¬ Evicts S client g moves key k) → line = line' := by
  have hguarded := run_guarded S client (empty_guarded g) moves
  refine ⟨?flights, ⟨?refused, ?errors, subperm_failures g moves⟩, ?lookups, ?lines⟩
  case flights =>
    intro i slot key hi
    have hguards := hguarded.establishes hi
    refine ⟨hguards.mapped, fun j slot' hj => ?_⟩
    -- both slots are the one that the map has for the key
    have hguards' := hguarded.establishes hj
    obtain rfl := Option.some.inj (hguards.mapped.symm.trans hguards'.mapped)
    exact hguards'.unique hguards
  case refused =>
    intro k x hx
    obtain ⟨m, hm, h⟩ | h := after_transition S client g moves k
    · exact ⟨m, hm, h.refused hx⟩
    · exact absurd (h ▸ hx) Refuses.ne
  case errors =>
    intro x hx
    obtain ⟨t, ht, -⟩ | h := ended_run (empty_plain g) moves hx
    · exact nomatch ht
    · exact h
  case lookups =>
    intro i n t line ht hline
    obtain ⟨m, hm⟩ := exists_looked ht hline.pursues
    exact ⟨m, { hm with gets := ⟨t, ht, hline⟩ }⟩
  case lines =>
    intro key i i' line line' m m' n n' h h' hm hkept
    exact h.line_eq h' hm hkept

end Pool

end SealedTunnel
