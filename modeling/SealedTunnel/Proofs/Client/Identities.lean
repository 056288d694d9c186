import SealedTunnel.Proofs.Client.Succession

/-!
# How an identity is spelled

A channel is found under the text of the root of its host. Endpoints with the same root share a
channel. Letters in another case make another root, though it names the same host.

* `Uri.Alike` — identifiers that are the same but for the case of letters.
* `Pool.Enters`, `Pool.Enters.key` — a task enters, and keeps the key that it enters with.
* `Pool.Obtains.holds`, `Pool.Holds.not_establishes` — who gets a line leaves it for the key, and
  there is no other handshake for the key as long as it is there.
* `Pool.Leads` — the line in a slot leads to the host that the slot was opened for.
* `Pool.spelling` — endpoints share a channel if their roots are spelled alike, and only then.
* `Pool.not_shared_by_alike` — case makes a difference.
-/

namespace SealedTunnel

/-- Two identifiers are the same, where letters in the scheme and the authority may be in another
case. -/
def Uri.Alike : Uri → Uri → Prop
  | .absolute scheme authority target, .absolute scheme' authority' target' =>
    Text.sameWord scheme.text scheme'.text = true ∧
      Text.sameWord authority.text authority'.text = true ∧ target = target'
  | .bare authority, .bare authority' => Text.sameWord authority.text authority'.text = true
  | .relative target, .relative target' => target = target'
  | _, _ => False

namespace Pool

variable {ρ τ : Type} {S : Suite ρ} {client : Client τ} {p q : Pool ρ}

/-! ## What the map has for a key -/

/-- No handshake is done for a key that has a line. -/
theorem Holds.not_establishes {key : Key} {line : Nat} {l : Line} (h : p.Holds key line l)
    (hg : p.Guarded) (i slot : Nat) : ¬ p.Establishes i slot key := by
  intro hi
  have hguards := hg.establishes hi
  obtain ⟨slot', hlookup, hline⟩ := h.slot
  obtain rfl := Option.some.inj (hguards.mapped.symm.trans hlookup)
  exact nomatch hguards.lineOf?_eq.symm.trans hline

/-- A slot was opened for a key: it stands in the map, or it is gone without a line, or its line
leads to the host of the key. -/
inductive Leads (p : Pool ρ) (key : Key) (slot : Nat) : Prop where
  /-- it stands in the map -/
  | mapped : p.entries.lookup key = some slot → Leads p key slot
  /-- it is gone without a line -/
  | dead : p.Dead slot → Leads p key slot
  /-- it has a line -/
  | settled {line : Nat} {l : Line} : p.lineOf? slot = some line → p.lines[line]? = some l →
    l.connection.endpoint.text = key.1 → Leads p key slot

/-- A line in the slot of a key leads to its host. -/
theorem Owned.exists_line {slotKeys lineKeys : List Key} (hp : p.Owned slotKeys lineKeys)
    {key : Key} {slot line : Nat} (hlookup : p.entries.lookup key = some slot)
    (hline : p.lineOf? slot = some line) :
    ∃ l, p.lines[line]? = some l ∧ l.connection.endpoint.text = key.1 :=
  hp.line_of_key (hp.line_in_map (mem_of_lookup hlookup) hline)

/-- It stays so. -/
theorem Leads.step {slotKeys lineKeys : List Key} {m : Move} {key : Key} {slot : Nat}
    (h : p.Leads key slot) (hm : Transition S client p m q) (hg : p.Guarded)
    (hp : p.Owned slotKeys lineKeys) : q.Leads key slot := by
  have hchange := hm.slotChange hg
  have stays : ∀ {line : Nat} {l : Line}, p.lineOf? slot = some line → p.lines[line]? = some l →
      l.connection.endpoint.text = key.1 → q.Leads key slot := by
    intro line l hline hl htext
    obtain ⟨l', hl', hconnection, -⟩ := (hm.lineChange hl).keeps
    exact .settled (hchange.lineOf?_eq hline) hl' (hconnection ▸ htext)
  cases h with
  | dead hdead => exact .dead (hchange.dead hdead)
  | settled hline hl htext => exact stays hline hl htext
  | mapped hlookup =>
    obtain hnext | hne | hdead := hchange.lookup hg hlookup
    · exact .mapped hnext
    · -- the slot has a line by now, and was opened for the key
      obtain ⟨line, hline⟩ := Option.ne_none_iff_exists'.mp hne
      obtain ⟨l, hl, htext⟩ := hp.exists_line hlookup hline
      exact stays hline hl htext
    · exact .dead hdead

/-! ## Runs -/

section Moments

/-- A task that is there stays, and keeps its key. -/
theorem Transition.exists_task {m : Move} (h : Transition S client p m q) {i : Nat} {t : Task}
    (ht : p.tasks[i]? = some t) : ∃ t', q.tasks[i]? = some t' ∧ t'.key = t.key := by
  by_cases hi : i = m.mover p
  case neg => exact ⟨t, (h.tasks hi).trans ht, rfl⟩
  subst hi
  obtain rfl | ⟨hnone, -⟩ | ⟨t₁, phase, ht₁, ht', -⟩ := h.moved
  · exact ⟨t, ht, rfl⟩
  · exact nomatch hnone.symm.trans ht
  · obtain rfl := Option.some.inj (ht₁.symm.trans ht)
    exact ⟨_, ht', rfl⟩

variable (S client) (g : ρ) (moves : List Move)

/-- Task `i` enters with the move at `k`, for an endpoint and a subject. -/
structure Enters (endpoint subject : String) (i k : Nat) : Prop where
  /-- the move -/
  submits : ∃ errand, moves[k]? = some (.submit endpoint subject errand)
  /-- the task is a new one -/
  new : (after S client g moves k).tasks.length = i

variable {S client g moves}

/-- From then on it has the key of the host's root and the subject. -/
theorem Enters.key {endpoint subject : String} {i k : Nat} {root : Uri}
    (h : Enters S client g moves endpoint subject i k) (hroot : destination endpoint = .ok root)
    {n : Nat} (hkn : k < n) :
    ∃ t, (after S client g moves n).tasks[i]? = some t ∧ t.key = (root.text, subject) := by
  induction hkn with
  | refl =>
    obtain ⟨errand, hm⟩ := h.submits
    refine ⟨{ key := (root.text, subject), errand, phase := .seeking }, ?_, rfl⟩
    rw [after_succ hm, step, submit, hroot, ← h.new]
    exact List.getElem?_concat_length
  | @step n _ ih =>
    obtain ⟨t, ht, hkey⟩ := ih
    obtain ⟨m, -, hnext⟩ | hsame := after_transition S client g moves n
    · obtain ⟨t', ht', hkey'⟩ := hnext.exists_task ht
      exact ⟨t', ht', hkey'.trans hkey⟩
    · exact ⟨t, hsame ▸ ht, hkey⟩

/-- A slot that was opened for a key is for that key for the rest of a run. -/
theorem leads_after {key : Key} {slot k n : Nat} (hkn : k ≤ n)
    (h : (after S client g moves k).Leads key slot) :
    (after S client g moves n).Leads key slot := by
  induction hkn with
  | refl => exact h
  | @step n _ ih =>
    obtain ⟨m, -, hnext⟩ | hsame := after_transition S client g moves n
    · obtain ⟨slotKeys, lineKeys, howned⟩ := after_owned S client g moves n
      exact ih.step hnext (after_guarded S client g moves n) howned
    · exact hsame ▸ ih

variable {key : Key} {i line m n : Nat}

/-- Who has got a line leaves it for the key until it is evicted. -/
theorem Obtains.holds (h : Obtains S client g moves key i line m n) {n' : Nat} (hn : n ≤ n')
    (hkept : ∀ k, m < k → k < n' → ¬ Evicts S client g moves key k) :
    ∃ l, (after S client g moves n').Holds key line l := by
  obtain ⟨slot, hslot, ⟨t, ht, hfits⟩, -⟩ := h.stands
  obtain ⟨t₁, ht₁, hreturned⟩ := h.gets
  obtain rfl := Option.some.inj (ht.symm.trans ht₁)
  have hline := lineOf?_after hn (hfits.line?_eq hreturned)
  have hlookup := lookup_after (Nat.le_trans h.earlier hn) (Nat.le_refl n') hslot hline hkept
  obtain ⟨slotKeys, lineKeys, howned⟩ := after_owned S client g moves n'
  obtain ⟨l, hl, -⟩ := howned.exists_line hlookup hline
  exact ⟨l, ⟨slot, hlookup, hline⟩, hl⟩

/-- The line leads to the host of the key for good. -/
theorem Obtains.located (h : Obtains S client g moves key i line m n) {n' : Nat} (hn : n ≤ n') :
    ∃ l, (after S client g moves n').lines[line]? = some l ∧
      l.connection.endpoint.text = key.1 := by
  obtain ⟨slot, hslot, ⟨t, ht, hfits⟩, -⟩ := h.stands
  obtain ⟨t₁, ht₁, hreturned⟩ := h.gets
  obtain rfl := Option.some.inj (ht.symm.trans ht₁)
  have hline := lineOf?_after hn (hfits.line?_eq hreturned)
  have hleads := leads_after (Nat.le_trans h.earlier hn) (.mapped hslot)
  obtain ⟨slotKeys, lineKeys, howned⟩ := after_owned S client g moves n'
  cases hleads with
  | mapped hlookup => exact howned.exists_line hlookup hline
  | dead hdead => exact nomatch hdead.empty.symm.trans hline
  | settled hline' hl htext =>
    obtain rfl := Option.some.inj (hline'.symm.trans hline)
    exact ⟨_, hl, htext⟩

end Moments

/-! ## All together -/

/-- In every run, two tasks that enter for endpoints with roots and for one subject have the same
key from then on if the roots are the same, and only then. If they are, both get the same line,
unless it is evicted between their look-ups. From when the first of them has it until it is evicted,
there is no handshake for the key, and the second one has the line as soon as it looks. If the
roots are not the same, no line is for both. -/
theorem spelling (S : Suite ρ) (client : Client τ) (g : ρ) (moves : List Move)
    {endpoint endpoint' : String} {root root' : Uri} (hroot : destination endpoint = .ok root)
    (hroot' : destination endpoint' = .ok root') {subject : String} {i j k k' : Nat}
    (hi : Enters S client g moves endpoint subject i k)
    (hj : Enters S client g moves endpoint' subject j k') :
    (∀ n, k < n → k' < n → ∃ t t', (after S client g moves n).tasks[i]? = some t ∧
      (after S client g moves n).tasks[j]? = some t' ∧ t.key = (root.text, subject) ∧
      t'.key = (root'.text, subject) ∧ (t.key = t'.key ↔ root = root')) ∧
    (root = root' → ∀ line m n, Obtains S client g moves (root.text, subject) i line m n →
      (∀ line' m' n', Obtains S client g moves (root'.text, subject) j line' m' n' → m ≤ m' →
        (∀ l, m < l → l < m' → ¬ Evicts S client g moves (root.text, subject) l) →
        line = line') ∧
      ∀ n', n ≤ n' → (∀ l, m < l → l < n' → ¬ Evicts S client g moves (root.text, subject) l) →
        (∀ i' slot, ¬ (after S client g moves n').Establishes i' slot (root.text, subject)) ∧
        (moves[n']? = some (.advance j) → k' < n' →
          (after S client g moves n').phase? j = some .seeking →
          (after S client g moves (n' + 1)).phase? j = some (.connected line))) ∧
    (root ≠ root' → ∀ line line' m m' n n',
      Obtains S client g moves (root.text, subject) i line m n →
      Obtains S client g moves (root'.text, subject) j line' m' n' → line ≠ line') := by
  refine ⟨?keys, ?shared, ?apart⟩
  case keys =>
    intro n hk hk'
    obtain ⟨t, ht, hkey⟩ := hi.key hroot hk
    obtain ⟨t', ht', hkey'⟩ := hj.key hroot' hk'
    refine ⟨t, t', ht, ht', hkey, hkey', ?_⟩
    rw [hkey, hkey']
    refine ⟨fun h => root_eq_of_text hroot hroot' (Prod.mk.inj h).1, ?_⟩
    rintro rfl
    rfl
  case shared =>
    rintro rfl line m n h
    refine ⟨fun line' m' n' h' hm hkept => h.line_eq h' hm hkept, fun n' hn hkept => ?_⟩
    obtain ⟨l, hholds⟩ := h.holds hn hkept
    refine ⟨hholds.not_establishes (after_guarded S client g moves n'), ?_⟩
    intro hm hk' hseeking
    obtain ⟨t, ht, hkey⟩ := hj.key hroot' hk'
    have hphase : t.phase = .seeking := by
      rw [phase?, ht] at hseeking
      exact Option.some.inj hseeking
    rw [after_succ hm]
    exact step_finds S client ht hphase (hkey ▸ hholds)
  case apart =>
    rintro hne line line' m m' n n' h h' rfl
    -- a line leads to one host
    obtain ⟨l, hl, htext⟩ := h.located (Nat.le_max_left n n')
    obtain ⟨l', hl', htext'⟩ := h'.located (Nat.le_max_right n n')
    obtain rfl := Option.some.inj (hl.symm.trans hl')
    exact hne (root_eq_of_text hroot hroot' (htext.symm.trans htext'))

/-- Two callers of one host who add different things to its root. -/
def extended : List Move :=
  [.submit "HTTPS://Host:8443/a?b" "X1" .connect, .advance 0,
    .submit "https://Host:8443#c" "X1" .connect, .advance 1]

/-- The second one waits in the slot of the first one. -/
theorem spelling_extended :
    let p := after Suite.standard World.sampleClient (Generator.ofSeed 7) extended 4
    ∃ t t', p.tasks[0]? = some t ∧ p.tasks[1]? = some t' ∧ t.key = ("https://Host:8443/", "X1") ∧
      t'.key = t.key ∧ t.phase = .queued 0 ∧ t'.phase = .queued 0 := by
  intro p
  have hfirst : p.phase? 0 = some (.queued 0) := rfl
  have hsecond : p.phase? 1 = some (.queued 0) := rfl
  have hroot : destination "HTTPS://Host:8443/a?b" =
      .ok (.absolute .https ⟨"Host:8443"⟩ .root) := rfl
  have hroot' : destination "https://Host:8443#c" =
      .ok (.absolute .https ⟨"Host:8443"⟩ .root) := rfl
  have hi : Enters Suite.standard World.sampleClient (Generator.ofSeed 7) extended
      "HTTPS://Host:8443/a?b" "X1" 0 0 := ⟨⟨_, rfl⟩, rfl⟩
  have hj : Enters Suite.standard World.sampleClient (Generator.ofSeed 7) extended
      "https://Host:8443#c" "X1" 1 2 := ⟨⟨_, rfl⟩, rfl⟩
  obtain ⟨t, t', ht, ht', hkey, -, hsame⟩ :=
    (spelling _ _ _ _ hroot hroot' hi hj).1 4 (by decide) (by decide)
  rw [phase?, ht] at hfirst
  rw [phase?, ht'] at hsecond
  exact ⟨t, t', ht, ht', hkey, (hsame.mpr rfl).symm, Option.some.inj hfirst,
    Option.some.inj hsecond⟩

/-- Two callers of one host who write its name in different cases. -/
def respelled : List Move :=
  [.submit "https://vau.example.com" "X1" .connect, .submit "https://VAU.example.com" "X1" .connect,
    .advance 0, .advance 1, .advance 0, .advance 1]

/-- Both of them do handshakes. -/
theorem handshakes_respelled (S : Suite ρ) (g : ρ) :
    let p := after S World.sampleClient g respelled 6
    ∃ t t', p.tasks[0]? = some t ∧ t.key = ("https://vau.example.com/", "X1") ∧
      t.phase.handshake? = some 0 ∧ p.tasks[1]? = some t' ∧
      t'.key = ("https://VAU.example.com/", "X1") ∧ t'.phase.handshake? = some 1 := by
  intro p
  -- both have opened a slot
  have hqueued : (after S World.sampleClient g respelled 4).tasks[0]? = some
      { key := ("https://vau.example.com/", "X1"), errand := .connect, phase := .queued 0 } := rfl
  have hqueued' : (after S World.sampleClient g respelled 4).tasks[1]? = some
      { key := ("https://VAU.example.com/", "X1"), errand := .connect, phase := .queued 1 } := rfl
  have hguards' : (after S World.sampleClient g respelled 4).Guards 1 1
      ("https://VAU.example.com/", "X1") := ⟨rfl, _, rfl, rfl, rfl⟩
  have hbegins := step_begins S World.sampleClient hqueued rfl ⟨rfl, _, rfl, rfl, rfl⟩
  -- the second one still has it when the first one has started
  have hfirst := step_transition S World.sampleClient
    (after S World.sampleClient g respelled 4) (.advance 0)
  have hstill := (hfirst.tasks (j := 1) Nat.one_ne_zero).trans hqueued'
  have hbegins' := step_begins S World.sampleClient hstill rfl
    ((hfirst.slotChange (after_guarded ..)).guards Nat.one_ne_zero hguards')
  have hsecond := step_transition S World.sampleClient
    (step S World.sampleClient (after S World.sampleClient g respelled 4) (.advance 0)) (.advance 1)
  have hp : p = step S World.sampleClient (step S World.sampleClient
    (after S World.sampleClient g respelled 4) (.advance 0)) (.advance 1) := rfl
  obtain ⟨t, ht, hphase⟩ := Option.map_eq_some_iff.mp hbegins
  obtain ⟨t', ht', hphase'⟩ := Option.map_eq_some_iff.mp hbegins'
  refine ⟨t, t', ?_, ?_, ?_, hp ▸ ht', ?_, ?_⟩
  · rw [hp, hsecond.tasks (j := 0) Nat.zero_ne_one, ht]
  · exact hfirst.key_eq hqueued ht
  · rw [hphase]
    split <;> rfl
  · exact hsecond.key_eq hstill ht'
  · rw [hphase']
    split <;> rfl

/-- One identity may have two handshakes at a time. -/
theorem not_shared_by_alike : ¬ ∀ (endpoint endpoint' subject : String) (root root' : Uri),
    destination endpoint = .ok root → destination endpoint' = .ok root' → root.Alike root' →
    ∀ (moves : List Move) (i j : Nat) (t t' : Task) (slot slot' : Nat),
      let p := run Suite.standard World.sampleClient (empty (Generator.ofSeed 7)) moves
      p.tasks[i]? = some t → p.tasks[j]? = some t' → t.key = (root.text, subject) →
      t'.key = (root'.text, subject) → t.phase.handshake? = some slot →
      t'.phase.handshake? = some slot' → i = j := by
  intro hall
  obtain ⟨t, t', ht, hkey, hphase, ht', hkey', hphase'⟩ :=
    handshakes_respelled Suite.standard (Generator.ofSeed 7)
  have hroot : destination "https://vau.example.com" =
      .ok (.absolute .https ⟨"vau.example.com"⟩ .root) := rfl
  have hroot' : destination "https://VAU.example.com" =
      .ok (.absolute .https ⟨"VAU.example.com"⟩ .root) := rfl
  have halike : Uri.Alike (.absolute .https ⟨"vau.example.com"⟩ .root)
      (.absolute .https ⟨"VAU.example.com"⟩ .root) := ⟨rfl, by decide +kernel, rfl⟩
  exact absurd (hall _ _ "X1" _ _ hroot hroot' halike respelled 0 1 t t' 0 1 ht ht' hkey hkey'
    hphase hphase') (by decide)

end Pool

end SealedTunnel
