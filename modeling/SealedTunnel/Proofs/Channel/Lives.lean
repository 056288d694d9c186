import SealedTunnel.Channel.Registry
import Mathlib.Logic.Function.Basic

/-!
# The life of a channel

Many tasks use one registry, each call at once. In whatever order their calls come, a channel only
goes forward: its handshake is kept, taken out by one of them, and followed by a session, which is
dropped by the first call that finds it past its end.

* `Registry.Call`, `Registry.Event`, `Registry.perform` — a call and its answer.
* `Registry.Course` — the calls on a registry from its beginning, the latest first.
* `Registry.Life`, `Registry.Life.Follows` — where a channel stands and where a call takes it.
* `Registry.Lives` — the lives of all channels.
* `Registry.Course.lives` — the registry holds what the lives of its channels say.
* `Registry.lives_of_course` — what follows for every course.
-/

namespace SealedTunnel

namespace Registry

variable {β : Type}

/-! ## What a registry holds -/

theorem find?_erase (r : Registry) (cid : String) :
    (r.erase cid).find? = Function.update r.find? cid none := by
  obtain ⟨entries⟩ := r
  funext other
  by_cases h : other = cid
  · rw [h, Function.update_self]
    refine List.lookup_eq_none_iff.mpr fun x hx => bne_iff_ne.mpr ?_
    exact Ne.symm (of_decide_eq_true (List.mem_filter.mp hx).2)
  · rw [Function.update_of_ne h]
    show (entries.filter _).lookup other = entries.lookup other
    induction entries with
    | nil => rfl
    | cons entry entries ih =>
      by_cases hentry : entry.1 = cid
      · rw [List.filter_cons_of_neg (by simpa using hentry), ih, List.lookup_cons,
          beq_eq_false_iff_ne.mpr (hentry ▸ h)]
      · rw [List.filter_cons_of_pos (by simpa using hentry), List.lookup_cons, List.lookup_cons,
          ih]

theorem find?_insert (r : Registry) (cid : String) (channel : Channel) :
    (r.insert cid channel).find? = Function.update r.find? cid (some channel) := by
  funext other
  by_cases h : other = cid
  · rw [h, Function.update_self]
    exact List.lookup_cons_self
  · have hlookup : (r.insert cid channel).find? other = (r.erase cid).find? other := by
      rw [insert, find?, List.lookup_cons, beq_eq_false_iff_ne.mpr h]
      rfl
    rw [hlookup, find?_erase, Function.update_of_ne h, Function.update_of_ne h]

/-! ## Calls -/

/-- A call on a registry. -/
inductive Call (β : Type) where
  /-- keep a handshake -/
  | begin (cid : String) (handshake : Handshake)
  /-- take a handshake out -/
  | finish (cid : String)
  /-- keep a session -/
  | establish (cid : String) (session : TimedSession)
  /-- work with a session, at a time; the work may fail and still change the session -/
  | use (cid : String) (now : UInt64) (work : Session → Except ChannelError β × Session)

/-- The channel that a call is about. -/
def Call.cid : Call β → String
  | .begin cid _ | .finish cid | .establish cid _ | .use cid _ _ => cid

/-- What a call gives back. -/
inductive Answer (β : Type) where
  /-- nothing -/
  | done
  /-- the handshake that was kept -/
  | handshake (answer : Except ChannelError Handshake)
  /-- what the work with the session came to, if it was done at all -/
  | result (answer : Except ChannelError (Except ChannelError β))

/-- A call with its answer. -/
structure Event (β : Type) where
  /-- the call -/
  call : Call β
  /-- its answer -/
  answer : Answer β

/-- The channel that an event is about. -/
abbrev Event.cid (e : Event β) : String := e.call.cid

/-- A handshake is kept. -/
abbrev Event.begun (cid : String) (handshake : Handshake) : Event β :=
  ⟨.begin cid handshake, .done⟩

/-- A handshake is taken out. -/
abbrev Event.taken (cid : String) (handshake : Handshake) : Event β :=
  ⟨.finish cid, .handshake (.ok handshake)⟩

/-- Make a call. -/
def perform (r : Registry) : Call β → Answer β × Registry
  | .begin cid handshake => (.done, r.begin cid handshake)
  | .finish cid => ((r.finish cid).map .handshake id)
  | .establish cid session => (.done, r.establish cid session)
  | .use cid now work => ((r.withSession cid now work).map .result id)

/-- Identifiers are fresh, and a session is kept once for each handshake that was taken out. -/
def Call.Proper (events : List (Event β)) : Call β → Prop
  | .begin cid _ => ∀ e ∈ events, ∀ handshake, e.call ≠ .begin cid handshake
  | .establish cid _ => ∃ after before handshake,
      events = after ++ Event.taken cid handshake :: before ∧
        ∀ e ∈ after, ∀ session, e.call ≠ .establish cid session
  | .finish _ | .use _ _ _ => True

/-- The calls that led to a registry from its beginning, whoever made them, the latest first. -/
inductive Course : List (Event β) → Registry → Prop
  | start : Course [] empty
  | step {events : List (Event β)} {r : Registry} (h : Course events r) (call : Call β)
      (hproper : call.Proper events) :
      Course (⟨call, (r.perform call).1⟩ :: events) (r.perform call).2

/-! ## Lives -/

/-- Where a channel stands. -/
inductive Life where
  /-- nobody knows it yet -/
  | absent
  /-- its handshake is kept -/
  | handshaking (handshake : Handshake)
  /-- its handshake was taken out -/
  | taken (handshake : Handshake)
  /-- it has a session -/
  | established (session : TimedSession)
  /-- its session came to its end -/
  | dropped

namespace Life

/-- What a registry holds of a channel. -/
def held? : Life → Option Channel
  | .handshaking handshake => some (.handshaking handshake)
  | .established session => some (.established session)
  | .absent | .taken _ | .dropped => none

/-- How far a channel has come. -/
def stage : Life → Nat
  | .absent => 0
  | .handshaking _ => 1
  | .taken _ => 2
  | .established _ => 3
  | .dropped => 4

/-- Where an event takes the channel that it is about. -/
inductive Follows : Life → Event β → Life → Prop
  | begun {cid : String} {handshake : Handshake} :
      Follows .absent (.begun cid handshake) (.handshaking handshake)
  | taken {cid : String} {handshake : Handshake} :
      Follows (.handshaking handshake) (.taken cid handshake) (.taken handshake)
  | established {cid : String} {handshake : Handshake} {session : TimedSession} :
      Follows (.taken handshake) ⟨.establish cid session, .done⟩ (.established session)
  | used {cid : String} {timed : TimedSession} {now : UInt64}
      {work : Session → Except ChannelError β × Session} (hnow : now < timed.expires) :
      Follows (.established timed) ⟨.use cid now work, .result (.ok (work timed.session).1)⟩
        (.established { timed with session := (work timed.session).2 })
  | dropped {cid : String} {timed : TimedSession} {now : UInt64}
      {work : Session → Except ChannelError β × Session} (hnow : ¬ now < timed.expires) :
      Follows (.established timed) ⟨.use cid now work, .result (.error .unknownCid)⟩ .dropped
  | notTaken {cid : String} {life : Life} (hlife : ∀ handshake, life ≠ .handshaking handshake) :
      Follows life ⟨.finish cid, .handshake (.error .unknownCid)⟩ life
  | notUsed {cid : String} {life : Life} {now : UInt64}
      {work : Session → Except ChannelError β × Session}
      (hlife : ∀ session, life ≠ .established session) :
      Follows life ⟨.use cid now work, .result (.error .unknownCid)⟩ life

variable {life life' life'' : Life} {e : Event β}

theorem Follows.stage_le (h : life.Follows e life') : life.stage ≤ life'.stage := by
  cases h with
  | notTaken | notUsed => exact Nat.le_refl _
  | _ => simp only [stage]; omega

theorem Follows.unique (h : life.Follows e life') (h' : life.Follows e life'') :
    life' = life'' := by
  cases h with
  | begun | taken | established => cases h' with | _ => rfl
  | used hnow => cases h' with
    | used => rfl
  | dropped hnow => cases h' with
    | dropped => rfl
    | notUsed hlife => exact absurd rfl (hlife _)
  | notTaken => cases h' with | notTaken => rfl
  | notUsed hlife => cases h' with
    | dropped => exact absurd rfl (hlife _)
    | notUsed => rfl

theorem eq_dropped (h : dropped.stage ≤ life.stage) : life = .dropped := by
  cases life with
  | dropped => rfl
  | _ => exact absurd h (by simp only [stage]; omega)

theorem eq_established {timed : TimedSession}
    (h : life.held? = some (.established timed)) : life = .established timed := by
  cases life with
  | established => exact congrArg _ (Channel.established.inj (Option.some.inj h))
  | _ => exact nomatch h

/-- Only a handshake that is kept is taken out. -/
theorem Follows.of_taken {cid : String} {handshake : Handshake}
    (h : life.Follows (β := β) (.taken cid handshake) life') :
    life = .handshaking handshake ∧ life' = .taken handshake := by
  cases h with
  | taken => exact ⟨rfl, rfl⟩

/-- Work with a session that is not past its end is done. -/
theorem Follows.of_used {cid : String} {timed : TimedSession} {now : UInt64}
    {work : Session → Except ChannelError β × Session} {answer : Answer β}
    (h : (Life.established timed).Follows ⟨.use cid now work, answer⟩ life')
    (hnow : now < timed.expires) : answer = .result (.ok (work timed.session).1) ∧
      life' = .established { timed with session := (work timed.session).2 } := by
  cases h with
  | used => exact ⟨rfl, rfl⟩
  | dropped hpast => exact absurd hnow hpast
  | notUsed hlife => exact absurd rfl (hlife timed)

/-- A session that is found past its end is dropped. -/
theorem Follows.of_expired {cid : String} {timed : TimedSession} {now : UInt64}
    {work : Session → Except ChannelError β × Session} {answer : Answer β}
    (h : (Life.established timed).Follows ⟨.use cid now work, answer⟩ life')
    (hnow : ¬ now < timed.expires) :
    answer = .result (.error .unknownCid) ∧ life' = .dropped := by
  cases h with
  | used hlive => exact absurd hlive hnow
  | dropped => exact ⟨rfl, rfl⟩
  | notUsed hlife => exact absurd rfl (hlife timed)

/-- A handshake is kept because it was handed in. -/
theorem Follows.handshaking {handshake : Handshake} (h : life.Follows e (.handshaking handshake)) :
    e = .begun e.cid handshake ∨ life = .handshaking handshake := by
  cases h with
  | begun => exact .inl rfl
  | notTaken | notUsed => exact .inr rfl

end Life

/-- The lives of all channels after some events, each of which is about one channel only. -/
inductive Lives : List (Event β) → (String → Life) → Prop
  | start : Lives [] fun _ => .absent
  | step {events : List (Event β)} {lives : String → Life} {e : Event β} {life : Life}
      (h : Lives events lives) (hlife : (lives e.cid).Follows e life) :
      Lives (e :: events) (Function.update lives e.cid life)

namespace Lives

variable {events before after : List (Event β)} {lives lives' earlier : String → Life}
  {e : Event β} {cid : String}

/-- The last event changes one life, if any. -/
theorem last (h : Lives (e :: events) lives) :
    ∃ earlier, Lives events earlier ∧ (earlier e.cid).Follows e (lives e.cid) ∧
      ∀ cid, e.cid ≠ cid → lives cid = earlier cid := by
  cases h with
  | @step _ earlier _ life h hlife =>
    refine ⟨earlier, h, ?_, fun cid hne => Function.update_of_ne hne.symm _ _⟩
    rw [Function.update_self]
    exact hlife

theorem unique (h : Lives events lives) (h' : Lives events lives') : lives = lives' := by
  induction h generalizing lives' with
  | start => cases h' with | start => rfl
  | step _ hlife ih =>
    cases h' with
    | step h' hlife' =>
      obtain rfl := ih h'
      rw [hlife.unique hlife']

/-- No channel goes back. -/
theorem stage_le (h : Lives (after ++ before) lives) (hbefore : Lives before earlier)
    (cid : String) : (earlier cid).stage ≤ (lives cid).stage := by
  induction after generalizing lives with
  | nil => exact Nat.le_of_eq (congrArg (fun l => (l cid).stage) (hbefore.unique h))
  | cons e after ih =>
    obtain ⟨middle, hmiddle, hfollows, hothers⟩ := h.last
    refine Nat.le_trans (ih hmiddle) ?_
    by_cases hcid : e.cid = cid
    · exact hcid ▸ hfollows.stage_le
    · exact Nat.le_of_eq (congrArg Life.stage (hothers cid hcid)).symm

/-- A channel stays where it is if the events that are about it leave it there. -/
theorem keeps (h : Lives (after ++ before) lives) (hbefore : Lives before earlier)
    (hkeeps : ∀ e ∈ after, e.cid = cid → ∀ life, (earlier cid).Follows e life →
      life = earlier cid) : lives cid = earlier cid := by
  induction after generalizing lives with
  | nil => rw [hbefore.unique h]
  | cons e after ih =>
    obtain ⟨middle, hmiddle, hfollows, hothers⟩ := h.last
    have hsame : middle cid = earlier cid :=
      ih hmiddle fun e he => hkeeps e (List.mem_cons_of_mem _ he)
    by_cases hcid : e.cid = cid
    · subst hcid
      exact hkeeps e List.mem_cons_self rfl _ (hsame ▸ hfollows)
    · rw [hothers cid hcid, hsame]

/-- Every event took its channel along its life. -/
theorem around (h : Lives (after ++ e :: before) lives) :
    ∃ earlier middle, Lives before earlier ∧ Lives (e :: before) middle ∧
      (earlier e.cid).Follows e (middle e.cid) := by
  induction after generalizing lives with
  | nil =>
    obtain ⟨earlier, hearlier, hfollows, -⟩ := h.last
    exact ⟨earlier, lives, hearlier, h, hfollows⟩
  | cons e' after ih =>
    obtain ⟨later, hlater, -⟩ := h.last
    exact ih hlater

/-- What no handshake was kept for is not known. -/
theorem absent (h : Lives events lives)
    (hfresh : ∀ e ∈ events, ∀ handshake, e.call ≠ .begin cid handshake) :
    lives cid = .absent := by
  rw [← List.append_nil events] at h
  refine h.keeps .start fun e he hcid life hlife => ?_
  cases hlife with
  | begun => exact absurd (congrArg (Call.begin · _) hcid) (hfresh _ he _)
  | notTaken | notUsed => rfl

/-- A channel whose handshake was taken out waits for its session. -/
theorem taken {handshake : Handshake}
    (h : Lives (after ++ .taken cid handshake :: before) lives)
    (hnone : ∀ e ∈ after, ∀ session, e.call ≠ .establish cid session) :
    lives cid = .taken handshake := by
  obtain ⟨earlier, middle, -, hmiddle, hfollows⟩ := h.around
  obtain ⟨-, htaken : middle cid = .taken handshake⟩ := hfollows.of_taken
  rw [← htaken]
  refine h.keeps hmiddle fun e he hcid life hlife => ?_
  rw [htaken] at hlife ⊢
  cases hlife with
  | established => exact absurd (congrArg (Call.establish · _) hcid) (hnone _ he _)
  | notTaken | notUsed => rfl

/-- What is kept for a channel was handed in for it. -/
theorem begun_mem {handshake : Handshake} (h : Lives events lives)
    (hlife : lives cid = .handshaking handshake) : .begun cid handshake ∈ events := by
  induction events generalizing lives with
  | nil => cases h with | start => exact nomatch hlife
  | cons e events ih =>
    obtain ⟨earlier, hearlier, hfollows, hothers⟩ := h.last
    by_cases hcid : e.cid = cid
    · subst hcid
      obtain he | hkept := Life.Follows.handshaking (hlife ▸ hfollows)
      · exact List.mem_cons.mpr (.inl he.symm)
      · exact List.mem_cons_of_mem _ (ih hearlier hkept)
    · exact List.mem_cons_of_mem _ (ih hearlier (hothers cid hcid ▸ hlife))

/-- Where a channel stands around the event that takes its handshake out. -/
theorem around_taken {handshake : Handshake}
    (h : Lives (after ++ .taken cid handshake :: before) lives) :
    ∃ earlier, Lives before earlier ∧ earlier cid = .handshaking handshake ∧
      (Life.taken handshake).stage ≤ (lives cid).stage := by
  obtain ⟨earlier, middle, hearlier, hmiddle, hfollows⟩ := h.around
  obtain ⟨hbefore, htaken⟩ := hfollows.of_taken
  exact ⟨earlier, hearlier, hbefore, htaken ▸ h.stage_le hmiddle cid⟩

theorem not_taken_twice {handshake handshake' : Handshake} {between : List (Event β)}
    (h : Lives (after ++ .taken cid handshake' :: (between ++ .taken cid handshake :: before))
      lives) : False := by
  obtain ⟨middle, hmiddle, hkept, -⟩ := h.around_taken
  obtain ⟨-, -, -, hstage⟩ := hmiddle.around_taken
  rw [hkept] at hstage
  exact Nat.not_succ_le_self 1 hstage

/-- A handshake is taken out only once. -/
theorem taken_once {handshake handshake' : Handshake}
    (h : Lives (after ++ .taken cid handshake :: before) lives) :
    .taken cid handshake' ∉ after ++ before := by
  intro hmem
  obtain hmem | hmem := List.mem_append.mp hmem
  · obtain ⟨later, between, rfl⟩ := List.append_of_mem hmem
    rw [List.append_assoc, List.cons_append] at h
    exact h.not_taken_twice
  · obtain ⟨between, earliest, rfl⟩ := List.append_of_mem hmem
    exact h.not_taken_twice

/-- A session stays as the last work with it left it. -/
theorem left {timed : TimedSession} {now : UInt64}
    {work : Session → Except ChannelError β × Session} {answer : Answer β}
    (h : Lives (after ++ ⟨.use cid now work, answer⟩ :: before) lives)
    (hbefore : Lives before earlier) (hlife : earlier cid = .established timed)
    (hnow : now < timed.expires)
    (hafter : ∀ e ∈ after, ∀ now' work', e.call ≠ .use cid now' work') :
    answer = .result (.ok (work timed.session).1) ∧
      lives cid = .established { timed with session := (work timed.session).2 } := by
  obtain ⟨earlier', middle, hearlier, hmiddle, hfollows⟩ := h.around
  obtain rfl := hbefore.unique hearlier
  obtain ⟨hanswer, hmid : middle cid = _⟩ := Life.Follows.of_used (hlife ▸ hfollows) hnow
  refine ⟨hanswer, hmid ▸ h.keeps hmiddle fun e he hcid life hlife => ?_⟩
  rw [hmid] at hlife ⊢
  cases hlife with
  | notTaken => rfl
  | used | dropped | notUsed =>
    exact absurd (congrArg (Call.use · _ _) hcid) (hafter _ he _ _)

/-- A session that was found past its end is gone. -/
theorem expired {timed : TimedSession} {now : UInt64}
    {work : Session → Except ChannelError β × Session} {answer : Answer β}
    (h : Lives (after ++ ⟨.use cid now work, answer⟩ :: before) lives)
    (hbefore : Lives before earlier) (hlife : earlier cid = .established timed)
    (hnow : ¬ now < timed.expires) :
    answer = .result (.error .unknownCid) ∧ lives cid = .dropped := by
  obtain ⟨earlier', middle, hearlier, hmiddle, hfollows⟩ := h.around
  obtain rfl := hbefore.unique hearlier
  obtain ⟨hanswer, hmid : middle cid = _⟩ := Life.Follows.of_expired (hlife ▸ hfollows) hnow
  exact ⟨hanswer, Life.eq_dropped (hmid ▸ h.stage_le hmiddle cid)⟩

end Lives

/-! ## What a registry does -/

section

variable {r : Registry} {cid : String} {life : Life} {now : UInt64} {timed : TimedSession}

theorem finish_handshaking {handshake : Handshake}
    (hr : r.find? cid = some (.handshaking handshake)) :
    r.finish cid = (.ok handshake, r.erase cid) := by
  simp only [finish, remove, hr]

theorem finish_established (hr : r.find? cid = some (.established timed)) :
    r.finish cid = (.error .unknownCid, (r.erase cid).insert cid (.established timed)) := by
  simp only [finish, remove, hr]

theorem finish_unknown (hr : r.find? cid = none) :
    r.finish cid = (.error .unknownCid, r.erase cid) := by
  simp only [finish, remove, hr]

/-- What is taken out although it is no handshake is put back, so the registry holds what it held
before. -/
theorem finish_of_ne (hr : r.find? cid = life.held?)
    (hlife : ∀ handshake, life ≠ .handshaking handshake) :
    (r.finish cid).1 = .error .unknownCid ∧ (r.finish cid).2.find? = r.find? := by
  cases life with
  | handshaking handshake => exact absurd rfl (hlife handshake)
  | established timed =>
    rw [finish_established hr]
    refine ⟨rfl, ?_⟩
    rw [find?_insert, find?_erase, Function.update_idem, Function.update_eq_self_iff]
    exact hr.symm
  | absent | taken _ | dropped =>
    rw [finish_unknown hr]
    refine ⟨rfl, ?_⟩
    rw [find?_erase, Function.update_eq_self_iff]
    exact hr.symm

variable (work : Session → Except ChannelError β × Session)

theorem withSession_of_ne (hr : r.find? cid = life.held?)
    (hlife : ∀ session, life ≠ .established session) :
    r.withSession cid now work = (.error .unknownCid, r) := by
  cases life with
  | established session => exact absurd rfl (hlife session)
  | _ => rw [withSession, hr]; rfl

theorem withSession_live (hr : r.find? cid = some (.established timed))
    (hnow : now < timed.expires) :
    r.withSession cid now work = (.ok (work timed.session).1,
      r.insert cid (.established { timed with session := (work timed.session).2 })) := by
  simp only [withSession, hr, if_pos hnow]

theorem withSession_expired (hr : r.find? cid = some (.established timed))
    (hnow : ¬ now < timed.expires) :
    r.withSession cid now work = (.error .unknownCid, r.erase cid) := by
  simp only [withSession, hr, if_neg hnow]

end

variable {r : Registry} {call : Call β} {life : Life} {events : List (Event β)}

/-- A call takes its channel along its life and leaves the others alone. -/
theorem perform_follows (hr : r.find? call.cid = life.held?)
    (hbegin : ∀ cid handshake, call = .begin cid handshake → life = .absent)
    (hestablish : ∀ cid session, call = .establish cid session →
      ∃ handshake, life = .taken handshake) :
    ∃ life' : Life, life.Follows ⟨call, (r.perform call).1⟩ life' ∧
      (r.perform call).2.find? = Function.update r.find? call.cid life'.held? := by
  cases call with
  | begin cid handshake =>
    obtain rfl := hbegin cid handshake rfl
    exact ⟨.handshaking handshake, .begun, find?_insert ..⟩
  | establish cid session =>
    obtain ⟨handshake, rfl⟩ := hestablish cid session rfl
    exact ⟨.established session, .established, find?_insert ..⟩
  | finish cid =>
    have hr : r.find? cid = life.held? := hr
    by_cases hlife : ∃ handshake, life = .handshaking handshake
    · obtain ⟨handshake, rfl⟩ := hlife
      rw [perform, finish_handshaking hr]
      exact ⟨.taken handshake, .taken, find?_erase ..⟩
    · have hlife := not_exists.mp hlife
      obtain ⟨hanswer, hfind⟩ := finish_of_ne hr hlife
      have hperform : (r.perform (β := β) (.finish cid)).1 = .handshake (.error .unknownCid) :=
        congrArg Answer.handshake hanswer
      rw [hperform]
      exact ⟨life, .notTaken hlife, hfind.trans (hr ▸ (Function.update_eq_self cid r.find?).symm)⟩
  | use cid now work =>
    have hr : r.find? cid = life.held? := hr
    by_cases hlife : ∃ timed, life = .established timed
    · obtain ⟨timed, rfl⟩ := hlife
      by_cases hnow : now < timed.expires
      · rw [perform, withSession_live work hr hnow]
        exact ⟨_, .used hnow, find?_insert ..⟩
      · rw [perform, withSession_expired work hr hnow]
        exact ⟨.dropped, .dropped hnow, find?_erase ..⟩
    · have hlife := not_exists.mp hlife
      rw [perform, withSession_of_ne work hr hlife]
      exact ⟨life, .notUsed hlife, hr ▸ (Function.update_eq_self cid r.find?).symm⟩

/-- The registry holds what the lives of its channels say. -/
theorem Course.lives (h : Course events r) :
    ∃ lives : String → Life, Lives events lives ∧ ∀ cid, r.find? cid = (lives cid).held? := by
  induction h with
  | start => exact ⟨_, .start, fun _ => rfl⟩
  | @step events r h call hproper ih =>
    obtain ⟨lives, hlives, hr⟩ := ih
    have hbegin : ∀ cid handshake, call = .begin cid handshake → lives call.cid = .absent := by
      rintro cid handshake rfl
      exact hlives.absent hproper
    have hestablish : ∀ cid session, call = .establish cid session →
        ∃ handshake, lives call.cid = .taken handshake := by
      rintro cid session rfl
      obtain ⟨after, before, handshake, rfl, hnone⟩ := hproper
      exact ⟨handshake, hlives.taken hnone⟩
    obtain ⟨life', hfollows, hfind⟩ := perform_follows (hr call.cid) hbegin hestablish
    refine ⟨_, .step hlives hfollows, fun cid => ?_⟩
    rw [hfind, funext hr]
    exact (Function.apply_update (fun _ => Life.held?) lives call.cid life' cid).symm

/-- A call touches its own channel only. -/
theorem find?_perform (r : Registry) (call : Call β) :
    ∃ entry, (r.perform call).2.find? = Function.update r.find? call.cid entry := by
  have hsame (cid : String) : ∃ entry, r.find? = Function.update r.find? cid entry :=
    ⟨r.find? cid, (Function.update_eq_self ..).symm⟩
  cases call with
  | begin | establish => exact ⟨_, find?_insert ..⟩
  | finish cid =>
    have hfinish : (r.perform (β := β) (.finish cid)).2 = (r.finish cid).2 := rfl
    rw [hfinish]
    cases hr : r.find? cid with
    | none =>
      rw [finish_unknown hr]
      exact ⟨_, find?_erase ..⟩
    | some channel =>
      cases channel with
      | handshaking handshake =>
        rw [finish_handshaking hr]
        exact ⟨_, find?_erase ..⟩
      | established timed =>
        rw [finish_established hr]
        refine ⟨some (.established timed), ?_⟩
        rw [find?_insert, find?_erase, Function.update_idem]
        rfl
  | use cid now work =>
    simp only [perform, withSession]
    split
    · split
      · exact ⟨_, find?_insert ..⟩
      · exact ⟨_, find?_erase ..⟩
    · exact hsame cid

/-- However the calls of many tasks on one registry come in turn, every channel goes through its
life in one direction, and the registry holds just what the lives of its channels say. A handshake
is taken out at most once, as it was handed in. What is not in a handshake cannot be taken out, and
trying it leaves everything where it is. Work is done with a session that is not past its end, as
the work before left it, failed or not; a session that is found past its end is gone, whatever the
time of later calls. No call touches another channel. -/
theorem lives_of_course (h : Course events r) :
    ∃ lives : String → Life, Lives events lives ∧
      (∀ cid, r.find? cid = (lives cid).held?) ∧
      (∀ after before earlier, events = after ++ before → Lives before earlier → ∀ cid,
        (earlier cid).stage ≤ (lives cid).stage ∧
          (earlier cid = .dropped → lives cid = .dropped)) ∧
      (∀ after before cid handshake, events = after ++ .taken cid handshake :: before →
        .begun cid handshake ∈ before ∧
          ∀ handshake', .taken cid handshake' ∉ after ++ before) ∧
      (∀ cid, (∀ handshake, lives cid ≠ .handshaking handshake) →
        (r.finish cid).1 = .error .unknownCid ∧ (r.finish cid).2.find? = r.find?) ∧
      (∀ cid now (work : Session → Except ChannelError β × Session),
        (∃ answer, (r.withSession cid now work).1 = .ok answer) ↔
          ∃ timed, lives cid = .established timed ∧ now < timed.expires) ∧
      (∀ after before earlier cid now work answer timed,
        events = after ++ ⟨.use cid now work, answer⟩ :: before → Lives before earlier →
        earlier cid = .established timed → now < timed.expires →
        (∀ e ∈ after, ∀ now' work', e.call ≠ .use cid now' work') →
        answer = .result (.ok (work timed.session).1) ∧
          lives cid = .established { timed with session := (work timed.session).2 }) ∧
      (∀ after before earlier cid now work answer timed,
        events = after ++ ⟨.use cid now work, answer⟩ :: before → Lives before earlier →
        earlier cid = .established timed → ¬ now < timed.expires →
        answer = .result (.error .unknownCid) ∧ lives cid = .dropped) ∧
      ∀ (call : Call β) cid, cid ≠ call.cid → (r.perform call).2.find? cid = r.find? cid := by
  obtain ⟨lives, hlives, hr⟩ := h.lives
  refine ⟨lives, hlives, hr, ?forward, ?once, ?refused, ?worked, ?left, ?expired, ?apart⟩
  case forward =>
    rintro after before earlier rfl hbefore cid
    have hstage := hlives.stage_le hbefore cid
    exact ⟨hstage, fun hdropped => Life.eq_dropped (hdropped ▸ hstage)⟩
  case once =>
    rintro after before cid handshake rfl
    obtain ⟨earlier, hearlier, hkept, -⟩ := hlives.around_taken
    exact ⟨hearlier.begun_mem hkept, fun handshake' => hlives.taken_once⟩
  case refused => exact fun cid => finish_of_ne (hr cid)
  case worked =>
    intro cid now work
    constructor
    · rintro ⟨answer, hanswer⟩
      by_cases hlife : ∃ timed, lives cid = .established timed
      · obtain ⟨timed, hlife⟩ := hlife
        refine ⟨timed, hlife, of_not_not fun hnow => ?_⟩
        rw [withSession_expired work (by rw [hr, hlife]; rfl) hnow] at hanswer
        exact nomatch hanswer
      · rw [withSession_of_ne work (hr cid) (not_exists.mp hlife)] at hanswer
        exact nomatch hanswer
    · rintro ⟨timed, hlife, hnow⟩
      rw [withSession_live work (by rw [hr, hlife]; rfl) hnow]
      exact ⟨_, rfl⟩
  case left =>
    rintro after before earlier cid now work answer timed rfl hbefore hlife hnow hafter
    exact hlives.left hbefore hlife hnow hafter
  case expired =>
    rintro after before earlier cid now work answer timed rfl hbefore hlife hnow
    exact hlives.expired hbefore hlife hnow
  case apart =>
    intro call cid hcid
    obtain ⟨entry, hentry⟩ := find?_perform r call
    rw [hentry, Function.update_of_ne hcid]

section Sample

/-- A handshake. -/
def sampleHandshake : Handshake where
  first := { agreed := [1], kyber := [2], point := .ofBytes [], ciphertext := [] }
  transcript := [3]

/-- A session that lasts until 10. -/
def sampleSession : TimedSession where
  session := .start .responder .testing
    { confirmToResponder := [], requests := [4], confirmToInitiator := [], responses := [5]
      keyId := [6] }
  expires := 10

/-- Work that counts a session up and fails. -/
def sampleWork (session : Session) : Except ChannelError Unit × Session :=
  (.error (.authentication "frame"), { session with received := session.received + 1 })

/-- The session as that work leaves it. -/
def sampleUsed : TimedSession :=
  { sampleSession with session := (sampleWork sampleSession.session).2 }

/-- Two tasks race for one handshake; then there is a session, which a late call drops. -/
def sampleEvents : List (Event Unit) := [
  ⟨.use "/VAU/0" 5 sampleWork, .result (.error .unknownCid)⟩,
  ⟨.use "/VAU/0" 20 sampleWork, .result (.error .unknownCid)⟩,
  ⟨.use "/VAU/0" 5 sampleWork, .result (.ok (sampleWork sampleSession.session).1)⟩,
  ⟨.establish "/VAU/0" sampleSession, .done⟩,
  ⟨.finish "/VAU/0", .handshake (.error .unknownCid)⟩,
  .taken "/VAU/0" sampleHandshake,
  .begun "/VAU/0" sampleHandshake]

theorem lives_of_course_sample : Course sampleEvents empty ∧ ∃ lives : String → Life,
    Lives sampleEvents lives ∧ lives "/VAU/0" = .dropped := by
  have hproper : (Call.establish "/VAU/0" sampleSession).Proper (sampleEvents.drop 4) := by
    refine ⟨[_], [_], sampleHandshake, rfl, fun e he session h => ?_⟩
    obtain rfl := List.mem_singleton.mp he
    exact nomatch h
  have hused : Course (sampleEvents.drop 2) ⟨[("/VAU/0", .established sampleUsed)]⟩ :=
    Course.start.step (.begin "/VAU/0" sampleHandshake) (fun _ h => nomatch h)
      |>.step (.finish "/VAU/0") trivial
      |>.step (.finish "/VAU/0") trivial
      |>.step _ hproper
      |>.step (.use "/VAU/0" 5 sampleWork) trivial
  have hcourse : Course sampleEvents empty := hused
    |>.step (.use "/VAU/0" 20 sampleWork) trivial
    |>.step (.use "/VAU/0" 5 sampleWork) trivial
  obtain ⟨earlier, hearlier, hheld, -⟩ := lives_of_course hused
  obtain ⟨lives, hlives, -, -, -, -, -, -, hexpired, -⟩ := lives_of_course hcourse
  have hlife : earlier "/VAU/0" = .established sampleUsed :=
    Life.eq_established (hheld "/VAU/0").symm
  obtain ⟨-, hdropped⟩ := hexpired [_] _ earlier "/VAU/0" 20 sampleWork _ sampleUsed rfl hearlier
    hlife (by decide)
  exact ⟨hcourse, lives, hlives, hdropped⟩

end Sample

end Registry

end SealedTunnel
