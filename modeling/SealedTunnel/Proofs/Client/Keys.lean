import SealedTunnel.Proofs.Channel.Completion
import SealedTunnel.Proofs.Client.Identities

/-!
# The key of an eviction

A channel is cached under the root of a host as it is printed, and evicted under the root that the
channel itself is bound to, which was read from that print. Both are the same.

* `Pool.Filed` — the map has a line under a key; `Pool.Filed.step`, `Pool.filed_after` — it has
  every line until a task that failed on it takes it out.
* `Pool.recomputed_key` — so an eviction takes out the line that it is about, and nothing else.
-/

namespace SealedTunnel.Pool

variable {ρ τ : Type} {S : Suite ρ} {client : Client τ} {p q : Pool ρ}
  {slotKeys lineKeys : List Key} {key : Key} {line : Nat}

/-! ## Lines in the map -/

/-- The map has a line under a key. -/
def Filed (p : Pool ρ) (key : Key) (line : Nat) : Prop :=
  ∃ slot, (key, slot) ∈ p.entries ∧ p.lineOf? slot = some line

theorem Owned.key_of_filed (hp : p.Owned slotKeys lineKeys) (h : p.Filed key line) :
    lineKeys[line]? = some key :=
  let ⟨_, hmem, hline⟩ := h
  hp.line_in_map hmem hline

/-- A line stays in the map unless a task that failed on it takes it out. -/
theorem Filed.step {m : Move} (h : p.Filed key line) (hm : Transition S client p m q)
    (hg : p.Guarded) (hp : p.Owned slotKeys lineKeys) :
    q.Filed key line ∨ ∃ i e, m = .advance i ∧ p.phase? i = some (.evicting line e) := by
  obtain ⟨slot, hmem, hline⟩ := h
  by_cases hstays : (key, slot) ∈ q.entries
  · exact .inl ⟨slot, hstays, (hm.slotChange hg).lineOf?_eq hline⟩
  obtain ⟨i, rfl, t, ht, -, ⟨hnone, -⟩ | ⟨line', e, hphase, hline'⟩⟩ :=
    hm.removes hg hp hmem hstays
  · exact nomatch hnone.symm.trans hline
  · obtain rfl := Option.some.inj (hline'.symm.trans hline)
    exact .inr ⟨i, e, rfl, Option.map_eq_some_iff.mpr ⟨t, ht, hphase⟩⟩

/-- A new line comes into a slot that is in the map. -/
theorem Transition.filed {m : Move} (h : Transition S client p m q) (hg : p.Guarded)
    (hold : p.lines.length ≤ line) (hnew : line < q.lines.length) : ∃ key, q.Filed key line := by
  cases h with
  | @established i slot t _ _ _ _ connection session _ ht hphase =>
    have hguards := hg.guards i t slot ht (by rw [hphase]; rfl)
    obtain ⟨s, hs, -, -⟩ := hguards.empty
    have hlast : line < p.lines.length + 1 := by
      have hlength : (p.lines ++ [Line.mk connection session .free]).length =
          p.lines.length + 1 := List.length_append
      exact hlength ▸ hnew
    obtain rfl := Nat.le_antisymm (Nat.le_of_lt_succ hlast) hold
    refine ⟨t.key, slot, mem_of_lookup hguards.mapped, ?_⟩
    show (p.slots.modify slot _)[slot]? >>= Slot.line = _
    rw [List.getElem?_modify_eq, hs]
    rfl
  | sent | unsent | written | received | lost | leftLine =>
    refine absurd hnew (Nat.not_lt.mpr ?_)
    simpa [setPhase, updateLine, turnLine] using hold
  | _ => exact absurd hnew (Nat.not_lt.mpr hold)

section Moments

variable (S client) (g : ρ) (moves : List Move)

/-- One of the first `n` moves was that of a task that had failed on the line, and took it out. -/
def TakenOut (line n : Nat) : Prop :=
  ∃ k < n, ∃ i e, moves[k]? = some (.advance i) ∧
    (after S client g moves k).phase? i = some (.evicting line e)

variable {S client g moves}

theorem TakenOut.succ {n : Nat} (h : TakenOut S client g moves line n) :
    TakenOut S client g moves line (n + 1) :=
  let ⟨k, hk, h⟩ := h
  ⟨k, Nat.lt_succ_of_lt hk, h⟩

/-- Every line is in the map until a task that failed on it takes it out. -/
theorem filed_after (n : Nat) (hline : line < (after S client g moves n).lines.length) :
    (∃ key, (after S client g moves n).Filed key line) ∨ TakenOut S client g moves line n := by
  induction n with
  | zero => exact absurd hline (Nat.not_lt_zero _)
  | succ n ih =>
    obtain ⟨m, hm, h⟩ | hsame := after_transition S client g moves n
    · have hguarded := after_guarded S client g moves n
      by_cases hold : line < (after S client g moves n).lines.length
      · obtain ⟨key, hfiled⟩ | htaken := ih hold
        · obtain ⟨slotKeys, lineKeys, howned⟩ := after_owned S client g moves n
          obtain hstays | ⟨i, e, rfl, hphase⟩ := hfiled.step h hguarded howned
          · exact .inl ⟨key, hstays⟩
          · exact .inr ⟨n, Nat.lt_succ_self n, i, e, hm, hphase⟩
        · exact .inr htaken.succ
      · exact .inl (h.filed hguarded (Nat.le_of_not_lt hold) hline)
    · rw [hsame] at hline ⊢
      exact (ih hline).imp_right TakenOut.succ

end Moments

/-! ## The key of an eviction -/

/-- The root of a host is read again from how it is printed, if the endpoint was not too long. In
every run: a line in the map stands under the key that the line itself tells. A task that has
entered for an endpoint and a subject looks under the root and the subject; if its exchange fails,
its line tells the same key, and it finds the line under it, unless somebody else who failed on the
line has taken it out before. The task takes out that line, and nothing else. -/
theorem recomputed_key (S : Suite ρ) (client : Client τ) (g : ρ) (moves : List Move)
    {endpoint : String} {root : Uri} (hroot : destination endpoint = .ok root) :
    (endpoint.utf8ByteSize < 60000 → destination root.text = .ok root) ∧
    ∀ n, let p := after S client g moves n
      (∀ key line, p.Filed key line →
        ∃ l, p.lines[line]? = some l ∧ (l.connection.endpoint.text, key.2) = key) ∧
      ∀ subject i k, Enters S client g moves endpoint subject i k → k < n →
        (∃ t, p.tasks[i]? = some t ∧ t.key = (root.text, subject)) ∧
        ∀ line e, p.phase? i = some (.evicting line e) → ∃ l, p.lines[line]? = some l ∧
          (l.connection.endpoint.text, subject) = (root.text, subject) ∧
          (p.Filed (l.connection.endpoint.text, subject) line ∨
            TakenOut S client g moves line n) ∧
          (moves[n]? = some (.advance i) → ∀ key slot,
            (key, slot) ∈ (after S client g moves (n + 1)).entries ↔
              (key, slot) ∈ p.entries ∧ p.lineOf? slot ≠ some line) := by
  refine ⟨destination_of_text hroot, fun n => ?_⟩
  intro p
  obtain ⟨slotKeys, lineKeys, howned⟩ := after_owned S client g moves n
  refine ⟨fun key line hfiled => ?_, fun subject i k henters hkn => ?_⟩
  · obtain ⟨l, hl, htext⟩ := howned.line_of_key (howned.key_of_filed hfiled)
    exact ⟨l, hl, by rw [htext]⟩
  obtain ⟨t, ht, hkey⟩ := henters.key hroot hkn
  refine ⟨⟨t, ht, hkey⟩, fun line e hevicting => ?_⟩
  obtain ⟨t', l, ht', hl, hlineKey, htext, hstep⟩ := step_evicting S client howned hevicting
  obtain rfl := Option.some.inj (ht'.symm.trans ht)
  rw [hkey] at hlineKey htext hstep
  have hsame : (l.connection.endpoint.text, subject) = (root.text, subject) :=
    congrArg (·, subject) htext
  refine ⟨l, hl, hsame, ?_, fun hm key slot => ?_⟩
  · rw [hsame]
    refine (filed_after n (List.getElem?_eq_some_iff.mp hl).1).imp_left fun ⟨key, hfiled⟩ => ?_
    obtain rfl := Option.some.inj ((howned.key_of_filed hfiled).symm.trans hlineKey)
    exact hfiled
  · rw [after_succ hm, hstep]
    exact howned.mem_entries_evict hlineKey

/-! ### A call that is lost -/

section Lost

open Draw (Yields)
open World (sampleClient sampleRequest sampleText silent)

/-- What a responder sends with message 2. -/
def answer2 (message2 : Bytes) : Outer.Response where
  status := 200
  headers := [("vau-cid", Bytes.ofString "/c")]
  body := message2

/-- What a responder sends with message 4. -/
def answer4 (message4 : Bytes) : Outer.Response where
  status := 200
  headers := []
  body := message4

/-- A call whose host answers the handshake with these messages, and is not reached after it. -/
def lostCall (message2 message4 : Bytes) : List Move :=
  [.submit "HTTPS://user@Host:8443/a?b" "X1" (.call (sampleRequest "/first")),
    .advance 0, .advance 0, .deliver 0 1500 (.ok (answer2 message2)) silent,
    .deliver 0 1600 (.ok (answer4 message4)) silent, .advance 0, .advance 0,
    .deliver 0 0 (.error (.transport "down")) silent, .advance 0]

/-- A pool with nothing but this call. -/
def alone (g : ρ) (slot : Slot) (lines : List Line) (phase : Phase) : Pool ρ where
  generator := g
  entries := [(("https://user@Host:8443/", "X1"), 0)]
  slots := [slot]
  lines := lines
  tasks := [{
    key := ("https://user@Host:8443/", "X1"), errand := .call (sampleRequest "/first"), phase }]

/-- What becomes of it if nothing else fails. -/
theorem run_lostCall {g g₁ g₂ g₃ g₄ : ρ} {message2 message4 : Bytes} {first second : Establishment}
    {connection : Connection} {session session' : Session} {frame : Frame}
    (hstart : (Establishment.start S .testing "https://user@Host:8443/").run g = (.ok first, g₁))
    (hcontinued : ((Establishment.resume S .insecure 1500 first
      (.ok (answer2 message2))).run.run g₁).under silent = (.ok (.waiting second), g₂))
    (hestablished : ((Establishment.resume S .insecure 1600 second
      (.ok (answer4 message4))).run.run g₂).under silent =
        (.ok (.established connection session), g₃))
    (hsent : Yields (Session.encrypt S (sampleText "/first")) (session, g₃) frame (session', g₄)) :
    after S sampleClient g (lostCall message2 message4) 8 =
      alone g₄ { turn := .free, line := some 0 } [⟨connection, session', .free⟩]
        (.evicting 0 (.transport "down")) := by
  let moves := lostCall message2 message4
  have hqueued : after S sampleClient g moves 2 =
      alone g { turn := ⟨some 0, []⟩, line := none } [] (.queued 0) := rfl
  have hbegan : after S sampleClient g moves 3 =
      alone g₁ { turn := ⟨some 0, []⟩, line := none } [] (.establishing 0 first) := by
    rw [after_succ rfl, hqueued]
    exact Eq.trans (step_began rfl rfl rfl rfl rfl rfl hstart) rfl
  have hwaiting : after S sampleClient g moves 4 =
      alone g₂ { turn := ⟨some 0, []⟩, line := none } [] (.establishing 0 second) := by
    rw [after_succ rfl, hbegan]
    exact Eq.trans (step_continued rfl rfl hcontinued) rfl
  have hconnected : after S sampleClient g moves 5 =
      alone g₃ { turn := .free, line := some 0 } [⟨connection, session, .free⟩] (.connected 0) := by
    rw [after_succ rfl, hwaiting]
    exact Eq.trans (step_established rfl rfl hestablished) rfl
  have hready : after S sampleClient g moves 6 =
      alone g₃ { turn := .free, line := some 0 } [⟨connection, session, ⟨some 0, []⟩⟩]
        (.ready 0 (sampleText "/first")) := by
    rw [after_succ rfl, hconnected]
    rfl
  have hexchanging : after S sampleClient g moves 7 =
      alone g₄ { turn := .free, line := some 0 } [⟨connection, session', ⟨some 0, []⟩⟩]
        (.exchanging 0 frame) := by
    rw [after_succ rfl, hready]
    exact Eq.trans (step_sent rfl rfl rfl rfl hsent) rfl
  rw [after_succ rfl, hexchanging]
  rfl

/-- There is such a call. -/
theorem exists_lostCall {kyber : Bytes × Bytes} (hsize : kyber.1.length = kyberKeySize)
    (hkyber : Kyber.generate (oneBytes 64).toList = kyber) (g : Generator) :
    ∃ message2 message4 g' session,
      after (Suite.sample (Kyber.encapsulate kyber.1 (oneBytes 32).toList)) sampleClient g
        (lostCall message2 message4) 8 =
      alone g' { turn := .free, line := some 0 } [{
        connection := {
          endpoint := .onHost .https ⟨"user@Host:8443"⟩ "/", cid := "/c"
          uri := .onHost .https ⟨"user@Host:8443"⟩ "/c" }
        session, turn := .free }] (.evicting 0 (.transport "down")) := by
  have honest := honest_sample hsize rfl g
  obtain ⟨_, answered, hfirst, hkey, -, hopened⟩ := honest.exists_decision
  obtain ⟨g', accepted, -, -, -, hkey'⟩ := honest.exists_accepted hfirst hkey answered.derived
    (Initiator.ofKeys .testing (KeyPair.sample kyber)).message1 (Wire.write answered.message2)
    { (Responder.sample kyber).signed with ocsp := [0x30] }
  obtain ⟨confirmation, -, -, -, hsession⟩ :=
    honest.exists_confirmed g (c := accepted.awaited) hkey' rfl
  -- the keys that requests are sent under have the right size
  obtain ⟨keys, hschedule, hkeys⟩ := SessionKeys.exists_derive (honest.sized.derive · 160)
    hfirst.shared
    (Encapsulation.sized_of_yields honest.sized.toEncapsulates accepted.created).shared
  obtain rfl := Except.ok.inj (hschedule.symm.trans accepted.scheduled)
  have hcounter : (Session.start .initiator .testing accepted.keys).nextOutgoing = .ok 1 := rfl
  have hserves : (Suite.sample (Kyber.encapsulate kyber.1 (oneBytes 32).toList)).Serves 128 :=
    Suite.sample_serves 128
  obtain ⟨_, -, -, -, -, hsent⟩ := Party.yields_encrypt hserves hcounter hkeys.requests g'
    World.length_sampleText_lt.1 []
  have hroot : destination "https://user@Host:8443/" =
    .ok (.onHost .https ⟨"user@Host:8443"⟩ "/") := rfl
  exact ⟨_, _, _, _, run_lostCall
    (Establishment.start_eq_ok hroot (Initiator.start_sample hkyber g))
    (Establishment.resume_unchecked rfl rfl hopened honest.signed
      (TrustDecision.yields_accept.mpr ⟨accepted, rfl, rfl⟩))
    (Establishment.resume_confirmed rfl hsession) hsent⟩

/-- The channel of such a call is evicted under the key that it was cached under. -/
theorem recomputed_key_lost :
    let kyber := Kyber.generate (oneBytes 64).toList
    let S := Suite.sample (Kyber.encapsulate kyber.1 (oneBytes 32).toList)
    let root : Uri := .absolute .https ⟨"user@Host:8443"⟩ .root
    destination root.text = .ok root ∧ ∃ message2 message4,
      let p := after S sampleClient (Generator.ofSeed 7) (lostCall message2 message4)
      (p 8).phase? 0 = some (.evicting 0 (.transport "down")) ∧
      (p 8).Filed ("https://user@Host:8443/", "X1") 0 ∧
      (∃ l, (p 8).lines[0]? = some l ∧ l.connection.endpoint.text = "https://user@Host:8443/") ∧
      (p 9).entries = [] := by
  intro kyber S root
  generalize Generator.ofSeed 7 = g
  obtain ⟨message2, message4, g', session, hafter⟩ :=
    exists_lostCall (Kyber.length_generate (oneBytes 64).toList) rfl g
  have hroot : destination "HTTPS://user@Host:8443/a?b" = .ok root := rfl
  have henters : Enters S sampleClient g (lostCall message2 message4) "HTTPS://user@Host:8443/a?b"
      "X1" 0 0 := ⟨⟨_, rfl⟩, rfl⟩
  obtain ⟨hagain, hkeys⟩ := recomputed_key S sampleClient g (lostCall message2 message4) hroot
  obtain ⟨-, hevicts⟩ := (hkeys 8).2 "X1" 0 0 henters (by decide)
  have hevicting : (after S sampleClient g (lostCall message2 message4) 8).phase? 0 =
      some (.evicting 0 (.transport "down")) := by
    rw [hafter]
    rfl
  obtain ⟨l, hl, hkey, -, hremoved⟩ := hevicts 0 _ hevicting
  refine ⟨hagain (by decide +kernel), message2, message4, hevicting, ?_,
    ⟨l, hl, (Prod.mk.inj hkey).1⟩, List.eq_nil_iff_forall_not_mem.mpr fun ⟨key, slot⟩ hmem => ?_⟩
  · rw [hafter]
    exact ⟨0, List.mem_cons_self, rfl⟩
  · -- the only slot is that of the line
    obtain ⟨hmem, hother⟩ := (hremoved rfl key slot).mp hmem
    rw [hafter] at hmem hother
    obtain ⟨-, rfl⟩ := Prod.mk.inj (List.mem_singleton.mp hmem)
    exact hother rfl

end Lost

end SealedTunnel.Pool
