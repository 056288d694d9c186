import SealedTunnel.Proofs.Client.PoolRun

/-!
# What a move means for a line

A line has a session, and at most one task that waits for the reply to a frame
of it. Most moves touch neither.

* `Pool.exchange?` — the frame whose reply a task waits for on a line.
* `LineChange` — the four things that a move can do to a line; `Pool.Transition.lineChange`.
-/

namespace SealedTunnel

/-- The frame whose reply a task in this phase waits for on a line. -/
def Phase.frame? (line : Nat) : Phase → Option Frame
  | .exchanging l frame => if l = line then some frame else none
  | _ => none

/-- Whether a task in this phase has given its exchange up. -/
def Phase.isLost : Phase → Bool
  | .evicting .. | .cancelled => true
  | _ => false

theorem Phase.isLost_of_frame? {phase : Phase} {line : Nat} {frame : Frame}
    (h : phase.frame? line = some frame) : phase.isLost = false := by
  cases phase with
  | exchanging l frame' => rfl
  | _ => exact nomatch h

@[simp] theorem Phase.frame?_exchanging (line : Nat) (frame : Frame) :
    (Phase.exchanging line frame).frame? line = some frame := if_pos rfl

theorem Phase.frame?_exchanging_of_ne {line line' : Nat} (h : line' ≠ line) (frame : Frame) :
    (Phase.exchanging line' frame).frame? line = none := if_neg h

namespace Turn

/-- Who has a lock keeps it when somebody else asks for it. -/
theorem holder_ask {t : Turn} {who : Nat} (h : t.holder = some who) (who' : Nat) :
    (t.ask who').holder = some who := by
  rw [ask, h]

/-- Who has a lock keeps it when somebody else leaves. -/
theorem holder_leave {t : Turn} {who who' : Nat} (h : t.holder = some who) (hne : who' ≠ who) :
    (t.leave who').holder = some who := by
  rw [leave, if_neg]
  · exact h
  · rw [h]
    intro heq
    exact hne (Option.some.inj heq).symm

end Turn

namespace Pool

variable {ρ τ : Type} {S : Suite ρ} {client : Client τ} {p q : Pool ρ}

/-! ## Phases -/

/-- Only the task that moves is somewhere else. -/
theorem phase?_setPhase {i : Nat} {task : Task} (h : p.tasks[i]? = some task) (phase : Phase)
    (j : Nat) : (p.setPhase i phase).phase? j = if j = i then some phase else p.phase? j := by
  simp only [phase?, setPhase]
  by_cases hj : j = i
  · subst hj
    rw [if_pos rfl]
    simp [h]
  · rw [if_neg hj]
    simp [Ne.symm hj]

/-- The frame whose reply a task waits for on a line. -/
def exchange? (p : Pool ρ) (line i : Nat) : Option Frame := p.phase? i >>= Phase.frame? line

theorem exchange?_eq {line i : Nat} {task : Task} (h : p.tasks[i]? = some task) :
    p.exchange? line i = task.phase.frame? line := by
  rw [exchange?, phase?, h]
  rfl

theorem exchange?_setPhase {i : Nat} {task : Task} (h : p.tasks[i]? = some task) (phase : Phase)
    (line j : Nat) : (p.setPhase i phase).exchange? line j =
      if j = i then phase.frame? line else p.exchange? line j := by
  rw [exchange?, phase?_setPhase h]
  split
  · rfl
  · rfl

end Pool

/-! ## Changes -/

/-- What a move can do to a line. -/
inductive LineChange {ρ : Type} (S : Suite ρ) (line : Nat) (l : Line) (p q : Pool ρ) :
    Pool.Move → Prop where
  /-- its session is left alone, and so is the task that waits for a reply -/
  | quiet {m : Pool.Move} {turn : Turn} : q.lines[line]? = some { l with turn } →
    (∀ i, q.exchange? line i = p.exchange? line i) →
    (∀ i frame, p.exchange? line i = some frame → l.turn.holder = some i →
      turn.holder = some i) →
    LineChange S line l p q m
  /-- the task whose turn it is sends a frame -/
  | sent {i : Nat} {plain : Bytes} {frame : Frame} {session : Session} {g g' : ρ} :
    l.turn.holder = some i → p.exchange? line i = none →
    Draw.Yields (Session.encrypt S plain) (l.session, g) frame (session, g') →
    q.lines[line]? = some { l with session } →
    (∀ j, q.exchange? line j = if j = i then some frame else p.exchange? line j) →
    LineChange S line l p q (.advance i)
  /-- the reply to a frame is accepted -/
  | received {i : Nat} {frame : Frame} {now : UInt64} {reply : Outer.Reply} {judge : Judge}
    {response : Outer.Response} {plain : Bytes} {session : Session} {turn : Turn}
    {result : Except ClientError Outcome} :
    p.exchange? line i = some frame → reply = .ok response →
    Draw.Yields (Session.decrypt S response.body) l.session plain session →
    q.phase? i = some (.finished result) →
    (∀ answer, result = .ok (.response answer) → Http.Response.decode plain = .ok answer) →
    q.lines[line]? = some { l with session, turn } →
    (∀ j, q.exchange? line j = if j = i then none else p.exchange? line j) →
    LineChange S line l p q (.deliver i now reply judge)
  /-- the exchange of a frame is lost -/
  | lost {m : Pool.Move} {i : Nat} {frame : Frame} {turn : Turn} {phase : Phase} :
    p.exchange? line i = some frame → q.phase? i = some phase → phase.isLost = true →
    q.lines[line]? = some { l with turn } →
    (∀ j, q.exchange? line j = if j = i then none else p.exchange? line j) →
    LineChange S line l p q m

/-- A move that leaves the line alone. -/
theorem LineChange.unchanged {ρ : Type} {S : Suite ρ} {line : Nat} {l : Line} {p q : Pool ρ}
    {m : Pool.Move} (hl : q.lines[line]? = some l)
    (h : ∀ i, q.exchange? line i = p.exchange? line i) : LineChange S line l p q m :=
  .quiet hl h fun _ _ _ hholder => hholder

namespace Pool

variable {ρ τ : Type} {S : Suite ρ} {client : Client τ} {p q : Pool ρ}

/-- A task that moves between phases without a frame on the line does nothing to it. -/
theorem quiet_setPhase {r : Pool ρ} {i line : Nat} {task : Task} {l : Line} {phase : Phase}
    {m : Move} (htask : p.tasks[i]? = some task) (htasks : r.tasks = p.tasks)
    (hl : r.lines[line]? = some l) (hbefore : task.phase.frame? line = none)
    (hafter : phase.frame? line = none) : LineChange S line l p (r.setPhase i phase) m := by
  refine .unchanged hl fun j => ?_
  rw [exchange?_setPhase (htasks ▸ htask)]
  split
  · rename_i hj
    rw [hj, exchange?_eq htask, hbefore, hafter]
  · rw [exchange?, phase?, htasks]
    rfl

/-- It may ask for a turn, or give up its own. -/
theorem quiet_turnLine {r : Pool ρ} {i line line' : Nat} {task : Task} {l : Line} {phase : Phase}
    {f : Turn → Turn} {m : Move} (htask : p.tasks[i]? = some task) (htasks : r.tasks = p.tasks)
    (hl : r.lines[line]? = some l) (hbefore : task.phase.frame? line = none)
    (hafter : phase.frame? line = none)
    (hkeep : line' = line → ∀ j ≠ i, l.turn.holder = some j → (f l.turn).holder = some j) :
    LineChange S line l p ((r.turnLine line' f).setPhase i phase) m := by
  refine .quiet (getElem?_turnLine hl line' f) (fun j => ?_) fun j frame hframe hholder => ?_
  · have htask' : (r.turnLine line' f).tasks[i]? = some task := htasks ▸ htask
    rw [exchange?_setPhase htask']
    split
    · rename_i hj
      rw [hj, exchange?_eq htask, hbefore, hafter]
    · show r.exchange? line j = p.exchange? line j
      rw [exchange?, phase?, htasks]
      rfl
  · split
    · rename_i hline
      refine hkeep hline j (fun hj => ?_) hholder
      rw [hj, exchange?_eq htask, hbefore] at hframe
      exact nomatch hframe
    · exact hholder

/-- A task that gives up its exchange on a line gives up its turn there. -/
theorem lost_turnLine {i line line' : Nat} {task : Task} {l : Line} {frame : Frame} {phase : Phase}
    {f : Turn → Turn} {m : Move} (htask : p.tasks[i]? = some task)
    (hphase : task.phase = .exchanging line' frame) (hl : p.lines[line]? = some l)
    (hlost : phase.isLost = true) :
    LineChange S line l p ((p.turnLine line' f).setPhase i phase) m := by
  have hafter : phase.frame? line = none := by
    cases h : phase.frame? line with
    | none => rfl
    | some frame => exact nomatch (Phase.isLost_of_frame? h).symm.trans hlost
  -- an exchange on another line leaves this one alone
  by_cases hline : line' = line
  · subst hline
    have hframe : p.exchange? line' i = some frame := by
      rw [exchange?_eq htask, hphase, Phase.frame?_exchanging]
    refine .lost hframe ?_ hlost (getElem?_turnLine hl line' f) fun j => ?_
    · rw [phase?_setPhase (p := p.turnLine line' f) htask, if_pos rfl]
    · rw [exchange?_setPhase (p := p.turnLine line' f) htask, hafter]
      rfl
  · refine quiet_turnLine htask rfl hl ?_ hafter fun h => absurd h hline
    rw [hphase, Phase.frame?_exchanging_of_ne hline]

theorem sent_lineChange {i line line' : Nat} {task : Task} {l l' : Line} {plain : Bytes}
    {frame : Frame} {session : Session} {g : ρ} (htask : p.tasks[i]? = some task)
    (hphase : task.phase = .ready line' plain) (hl' : p.lines[line']? = some l')
    (hholder : l'.turn.holder = some i)
    (hsend : (Session.encrypt S plain).run (l'.session, p.generator) = (.ok frame, session, g))
    (hl : p.lines[line]? = some l) : LineChange S line l p
      (({ p with generator := g }.updateLine line' fun l => { l with session }).setPhase i
        (.exchanging line' frame)) (.advance i) := by
  have htask' : ({ p with generator := g }.updateLine line' fun l =>
    { l with session }).tasks[i]? = some task := htask
  have hupdate := getElem?_updateLine (p := { p with generator := g }) hl line'
    fun l => { l with session }
  have hnone : p.exchange? line i = none := by
    rw [exchange?_eq htask, hphase]
    rfl
  by_cases hline : line' = line
  · subst hline
    obtain rfl := Option.some.inj (hl'.symm.trans hl)
    rw [if_pos rfl] at hupdate
    refine .sent hholder hnone (.of_run hsend) hupdate fun j => ?_
    rw [exchange?_setPhase htask', Phase.frame?_exchanging]
    rfl
  · rw [if_neg hline] at hupdate
    refine .unchanged hupdate fun j => ?_
    rw [exchange?_setPhase htask', Phase.frame?_exchanging_of_ne hline]
    split
    · rename_i hj
      rw [hj, hnone]
    · rfl

theorem received_lineChange {i line line' : Nat} {task : Task} {l l' : Line} {frame : Frame}
    {now : UInt64} {reply : Outer.Reply} {judge : Judge} {response : Outer.Response}
    {plain : Bytes} {session : Session} {result : Except ClientError Outcome}
    (htask : p.tasks[i]? = some task) (hphase : task.phase = .exchanging line' frame)
    (hl' : p.lines[line']? = some l')
    (hresponse : (frameRequest l'.connection frame).success reply = .ok response)
    (hdecrypt : (Session.decrypt S response.body).run l'.session = (.ok plain, session))
    (hresult : ∀ answer, result = .ok (.response answer) →
      Http.Response.decode plain = .ok answer)
    (hl : p.lines[line]? = some l) : LineChange S line l p
      (((p.turnLine line' Turn.release).updateLine line' fun l => { l with session }).setPhase i
        (.finished result)) (.deliver i now reply judge) := by
  have htask' : ((p.turnLine line' Turn.release).updateLine line' fun l =>
    { l with session }).tasks[i]? = some task := htask
  have hupdate := getElem?_updateLine (getElem?_turnLine hl line' Turn.release) line'
    fun l => { l with session }
  by_cases hline : line' = line
  · subst hline
    obtain rfl := Option.some.inj (hl'.symm.trans hl)
    rw [if_pos rfl] at hupdate
    have hreply : reply = .ok response := by
      cases reply with
      | error e => exact nomatch hresponse
      | ok response' =>
        have hok : Outer.expectOk (frameRequest l'.connection frame).method.name
          (frameRequest l'.connection frame).uri response' = .ok response := hresponse
        simp only [Outer.expectOk] at hok
        split at hok
        · exact hok
        · exact nomatch hok
    have hframe : p.exchange? line' i = some frame := by
      rw [exchange?_eq htask, hphase, Phase.frame?_exchanging]
    refine .received hframe hreply (.of_run hdecrypt) ?_ hresult hupdate fun j => ?_
    · rw [phase?_setPhase htask', if_pos rfl]
    · rw [exchange?_setPhase htask']
      rfl
  · rw [if_neg hline] at hupdate
    have hnone : p.exchange? line i = none := by
      rw [exchange?_eq htask, hphase, Phase.frame?_exchanging_of_ne hline]
    refine .quiet hupdate (fun j => ?_) fun _ _ _ hholder => ?_
    · rw [exchange?_setPhase htask']
      split
      · rename_i hj
        rw [hj, hnone]
        rfl
      · rfl
    · rw [if_neg hline]
      exact hholder

/-- Every transition does one of four things to a line. -/
theorem Transition.lineChange {m : Move} (h : Transition S client p m q) {line : Nat} {l : Line}
    (hl : p.lines[line]? = some l) : LineChange S line l p q m := by
  cases h with
  | idle => exact LineChange.unchanged hl fun _ => rfl
  | @submitted _ _ _ task hphase =>
    refine .unchanged hl fun i => ?_
    simp only [exchange?, phase?]
    rcases Nat.lt_trichotomy i p.tasks.length with hlt | rfl | hgt
    · rw [List.getElem?_append_left hlt]
    · rw [List.getElem?_concat_length, List.getElem?_eq_none (Nat.le_refl _)]
      rcases hphase with h | ⟨e, h⟩
      · rw [Option.map_some, h]
        rfl
      · rw [Option.map_some, h]
        rfl
    · rw [List.getElem?_eq_none (by rw [List.length_append, List.length_singleton]; omega),
        List.getElem?_eq_none (Nat.le_of_lt hgt)]
  | found htask hphase => exact quiet_setPhase htask rfl hl (by rw [hphase]; rfl) rfl
  | joined htask hphase => exact quiet_setPhase htask rfl hl (by rw [hphase]; rfl) rfl
  | opened htask hphase => exact quiet_setPhase htask rfl hl (by rw [hphase]; rfl) rfl
  | handed htask hphase => exact quiet_setPhase htask rfl hl (by rw [hphase]; rfl) rfl
  | began htask hphase => exact quiet_setPhase htask rfl hl (by rw [hphase]; rfl) rfl
  | unstarted htask hphase => exact quiet_setPhase htask rfl hl (by rw [hphase]; rfl) rfl
  | restarted htask hphase => exact quiet_setPhase htask rfl hl (by rw [hphase]; rfl) rfl
  | cleared htask hphase => exact quiet_setPhase htask rfl hl (by rw [hphase]; rfl) rfl
  | joinedLine htask hphase => exact quiet_setPhase htask rfl hl (by rw [hphase]; rfl) rfl
  | unwritten htask hphase => exact quiet_setPhase htask rfl hl (by rw [hphase]; rfl) rfl
  | written htask hphase =>
    exact quiet_turnLine htask rfl hl (by rw [hphase]; rfl) rfl
      fun _ j _ hholder => Turn.holder_ask hholder _
  | sent htask hphase hl' hholder hsend =>
    exact sent_lineChange htask hphase hl' hholder hsend hl
  | @unsent i line' _ _ _ _ _ htask hphase hl' hholder =>
    refine quiet_turnLine htask rfl hl (by rw [hphase]; rfl) rfl fun hline j hj hholder' => ?_
    -- nobody else has the turn that is given up
    subst hline
    obtain rfl := Option.some.inj (hl'.symm.trans hl)
    exact absurd (Option.some.inj (hholder'.symm.trans hholder)) hj
  | evicted htask hphase => exact quiet_setPhase htask rfl hl (by rw [hphase]; rfl) rfl
  | continued htask hphase => exact quiet_setPhase htask rfl hl (by rw [hphase]; rfl) rfl
  | established htask hphase =>
    refine quiet_setPhase htask rfl ?_ (by rw [hphase]; rfl) rfl
    obtain ⟨hlt, -⟩ := List.getElem?_eq_some_iff.mp hl
    exact (List.getElem?_append_left hlt).trans hl
  | broken htask hphase => exact quiet_setPhase htask rfl hl (by rw [hphase]; rfl) rfl
  | received htask hphase hl' hresponse hdecrypt hresult =>
    exact received_lineChange htask hphase hl' hresponse hdecrypt hresult hl
  | lost htask hphase hl' => exact lost_turnLine htask hphase hl rfl
  | leftSlot htask hphase =>
    refine quiet_setPhase htask rfl hl ?_ rfl
    rcases hphase with h | ⟨_, h⟩ | ⟨_, h⟩ <;> rw [h] <;> rfl
  | leftLine htask hphase =>
    rcases hphase with ⟨plain, hphase⟩ | ⟨frame, hphase⟩
    · exact quiet_turnLine htask rfl hl (by rw [hphase]; rfl) rfl
        fun _ j hj hholder => Turn.holder_leave hholder (Ne.symm hj)
    · exact lost_turnLine htask hphase hl rfl
  | left htask hphase =>
    refine quiet_setPhase htask rfl hl ?_ rfl
    rcases hphase with h | ⟨_, h⟩ | ⟨_, _, h⟩ | h <;> rw [h] <;> rfl

end Pool

end SealedTunnel
