import SealedTunnel.Proofs.Cbor.Locality

/-!
# What is read may be skipped

A reader that looks for something else passes over a value without knowing what kind of value it
is. It ends where the reader for that kind does, at any depth and behind any tags.

* `Count.fold_follows` — repetition in step with another one.
* `Reader.skipBehind`, `Reader.view_skip_of_head` — what is skipped behind a head.
* `Reader.Skippable` — whatever the reader takes may be skipped; `Reader.skippable_bytes`,
  `Reader.skippable_text`, … — values.
* `Fields.exists_key` — the key of an entry is the same for all records.
* `Fields.skippable_read` — records, whether they are maps or arrays.
-/

namespace SealedTunnel

namespace Cbor

variable {α β σ τ : Type}

/-! ## Repetition -/

/-- A repetition whose steps follow those of another one takes the same. The states of both stay
related. -/
theorem Count.fold_follows {step : σ → (input : Bytes) → Except Fault (σ × Rest input)}
    {step' : τ → (input : Bytes) → Except Fault (τ × Rest input)} {R : σ → τ → Prop}
    (hstep : ∀ s t input s' rest, R s t → view (step s) input = some (s', rest) →
      ∃ t', R s' t' ∧ view (step' t) input = some (t', rest))
    {count : Count} {s a : σ} {t : τ} (hst : R s t) {input rest : Bytes}
    (h : view (count.fold step s) input = some (a, rest)) :
    ∃ b, R a b ∧ view (count.fold step' t) input = some (b, rest) := by
  replace h : outcome (count.fold step s input) = some (a, rest) := h
  fun_induction fold count step s input generalizing t with
  | case1 | case3 | case4 => cases h
  | case2 count s input rest' hfinished =>
    obtain ⟨rfl, rfl⟩ := Prod.mk.inj (Option.some.inj h)
    exact ⟨t, hst, view_fold_finished hfinished⟩
  | case5 count s input hfinished s' rest' hlt hs s'' rest'' hle hrest ih =>
    obtain ⟨t', hst', ht⟩ := hstep s t input s' rest' hst (view_eq_some.mpr ⟨hlt, hs⟩)
    obtain ⟨b, hab, hb⟩ := ih hst' (by rw [hrest]; exact h)
    exact ⟨b, hab, (view_fold_next hfinished ht).trans hb⟩

/-- If whatever a step takes is skipped, whatever the repetition takes is, too. -/
theorem Count.fold_skips {step : σ → (input : Bytes) → Except Fault (σ × Rest input)}
    {part : (input : Bytes) → Except Fault (Unit × Rest input)}
    (hstep : ∀ s input s' rest, view (step s) input = some (s', rest) →
      view part input = some ((), rest)) {count : Count} {s a : σ} {input rest : Bytes}
    (h : view (count.fold step s) input = some (a, rest)) :
    view (count.fold (fun _ => part) ()) input = some ((), rest) := by
  have hfollows : ∀ (s : σ) (_ : Unit) (input : Bytes) (s' : σ) (rest : Bytes), True →
      view (step s) input = some (s', rest) →
      ∃ u : Unit, True ∧ view part input = some (u, rest) :=
    fun s _ input s' rest _ h => ⟨(), trivial, hstep s input s' rest h⟩
  obtain ⟨_, -, hskip⟩ := fold_follows hfollows trivial h
  exact hskip

namespace Reader

/-! ## Behind a head -/

/-- What skips a value that is nested one level deeper, if there is another level. -/
def inner? : Nat → Option ((input : Bytes) → Except Fault (Unit × Rest input))
  | 0 => none
  | depth + 1 => some (skip depth)

theorem skip_eq (depth : Nat) : skip depth = skipWith (inner? depth) := by
  cases depth <;> rfl

/-- Skip one item of an array, or both parts of an entry of a map. -/
def skipPart (depth each : Nat) (input : Bytes) : Except Fault (Unit × Rest input) := do
  let ((), ⟨rest, h⟩) ← skip depth input
  if each = 1 then return ((), ⟨rest, h⟩)
  else
    let ((), ⟨rest', h'⟩) ← skip depth rest
    return ((), ⟨rest', Rest.trans h' h⟩)

/-- Skip what is nested in a value. -/
def skipNested : (depth : Nat) → Count → (each : Nat) → View Unit
  | 0, _, _ => View.fail
  | depth + 1, count, each => view (count.fold (fun _ => skipPart depth each) ())

/-- Skip what a byte string holds. -/
def skipString (f : (input : Bytes) → Except Fault (Bytes × Remaining input)) (input : Bytes) :
    Except Fault (Unit × Remaining input) := do
  let (_, rest) ← f input
  return ((), rest)

/-- Skip what a text holds. -/
def skipText (f : (input : Bytes) → Except Fault (Bytes × Remaining input)) (input : Bytes) :
    Except Fault (Unit × Remaining input) := do
  let (b, rest) ← f input
  let _ ← utf8 b
  return ((), rest)

/-- Skip what follows a head. -/
def skipBehind (depth : Nat) : Head → View Unit
  | .unsigned _ | .negative _ | .flag _ | .null | .undefined | .float => View.pure ()
  | .bytes n => view (skipString (Head.take? n))
  | .byteChunks => view (skipString (chunks false))
  | .text n => view (skipText (Head.take? n))
  | .textChunks => view (skipText (chunks true))
  | .array n => skipNested depth (.exactly n) 1
  | .elements => skipNested depth .untilStop 1
  | .map n => skipNested depth (.exactly n) 2
  | .entries => skipNested depth .untilStop 2
  | .tag _ => skipNested depth (.exactly 1) 1
  | .stop => View.fail

theorem view_skip_of_read {depth : Nat} {input : Bytes} {head : Head} {rest : Rest input}
    (h : Head.read input = .ok (head, rest)) :
    view (skip depth) input = skipBehind depth head rest.val := by
  rw [skip_eq, view, skipWith, h]
  cases head with
  | array | elements | map | entries | tag =>
    cases depth with
    | zero => rfl
    | succ depth => exact outcome_behind rest _
  | bytes n => exact outcome_behind rest (skipString (Head.take? n))
  | byteChunks => exact outcome_behind rest (skipString (chunks false))
  | text n => exact outcome_behind rest (skipText (Head.take? n))
  | textChunks => exact outcome_behind rest (skipText (chunks true))
  | _ => rfl

/-! ### Parts -/

theorem view_skipPart_one {depth : Nat} {input rest : Bytes}
    (h : view (skip depth) input = some ((), rest)) :
    view (skipPart depth 1) input = some ((), rest) := by
  obtain ⟨hlt, h⟩ := view_eq_some.mp h
  exact view_bind_eq_some.mpr ⟨(), ⟨rest, hlt⟩, h, rfl⟩

theorem view_skipPart_two {depth : Nat} {input middle rest : Bytes}
    (h : view (skip depth) input = some ((), middle))
    (h' : view (skip depth) middle = some ((), rest)) :
    view (skipPart depth 2) input = some ((), rest) := by
  obtain ⟨hlt, h⟩ := view_eq_some.mp h
  refine view_bind_eq_some.mpr ⟨(), ⟨middle, hlt⟩, h, ?_⟩
  exact (outcome_bind fun _ _ => rfl).trans h'

theorem view_skipString {f : (input : Bytes) → Except Fault (Bytes × Remaining input)}
    {input rest b : Bytes} (h : view f input = some (b, rest)) :
    view (skipString f) input = some ((), rest) := by
  obtain ⟨hle, h⟩ := view_eq_some.mp h
  exact view_bind_eq_some.mpr ⟨b, ⟨rest, hle⟩, h, rfl⟩

/-- A text that is read is a text. -/
theorem view_skipText {f : (input : Bytes) → Except Fault (Bytes × Remaining input)}
    {input rest : Bytes} {a : α} (use : Bytes → String → α)
    (h : view (fun input => do
      let result ← f input
      let s ← utf8 result.1
      return (use result.1 s, result.2)) input = some (a, rest)) :
    view (skipText f) input = some ((), rest) := by
  obtain ⟨b, middle, hf, h⟩ := view_bind_eq_some.mp h
  obtain ⟨hle, h⟩ := outcome_eq_some.mp h
  obtain ⟨s, hs, h⟩ := bind_eq_ok.mp h
  obtain ⟨-, rfl⟩ := Prod.mk.inj (Except.ok.inj h)
  exact view_bind_eq_some.mpr ⟨b, _, hf, outcome_eq_some.mpr ⟨hle, bind_eq_ok.mpr ⟨s, hs, rfl⟩⟩⟩

/-- A value is skipped if what follows its head is, and the tags in front of it are, too. -/
theorem view_skip_of_head {depth depth' : Nat} {input rest : Bytes} {head : Head}
    {middle : Rest input} (h : Reader.head depth input = .ok ((head, depth'), middle))
    (hbehind : skipBehind depth' head middle.val = some ((), rest)) :
    view (skip depth) input = some ((), rest) := by
  induction depth generalizing input with
  | zero =>
    obtain ⟨⟨head', middle'⟩, hread, h⟩ := bind_eq_ok.mp h
    cases head' with
    | tag n => exact nomatch h
    | _ =>
      cases h
      exact (view_skip_of_read hread).trans hbehind
  | succ depth ih =>
    obtain ⟨⟨head', middle'⟩, hread, h⟩ := bind_eq_ok.mp h
    cases head' with
    | tag n =>
      -- the value behind a tag is the one item that is nested in it
      obtain ⟨⟨result, middle''⟩, hhead, h⟩ := bind_eq_ok.mp h
      cases h
      have hstop : (Count.exactly 0).finished? rest = .ok (some ⟨rest, Nat.le_refl _⟩) := rfl
      refine (view_skip_of_read hread).trans ?_
      exact (Count.view_fold_next rfl (view_skipPart_one (ih hhead hbehind))).trans
        (Count.view_fold_finished hstop)
    | _ =>
      cases h
      exact (view_skip_of_read hread).trans hbehind

/-! ## Values of one kind -/

/-- Whatever the reader takes may be skipped. -/
def Skippable (r : Reader α) : Prop := ∀ depth input a rest,
  view (r depth) input = some (a, rest) → view (skip depth) input = some ((), rest)

theorem skippable_skip : Skippable skip := fun _ _ _ _ h => h

theorem Skippable.map {r : Reader α} (hr : Skippable r) (f : α → β) : Skippable (r.map f) := by
  intro depth input b rest h
  obtain ⟨a, ha, -⟩ := view_map_eq_some.mp h
  exact hr depth input a rest ha

theorem skippable_natural (bound : Nat) : Skippable (natural bound) := by
  intro depth input a rest h
  obtain ⟨⟨head, depth'⟩, middle, hhead, h⟩ := view_bind_eq_some.mp h
  refine view_skip_of_head hhead ?_
  cases head with
  | unsigned n =>
    by_cases hn : n < bound
    · simp only [if_pos hn] at h
      obtain ⟨-, rfl⟩ := Prod.mk.inj (Option.some.inj h)
      rfl
    · simp only [if_neg hn] at h
      exact nomatch h
  | _ => exact nomatch h

theorem skippable_items {r : Reader α} (hr : Skippable r) {depth : Nat} {count : Count}
    {input rest : Bytes} {as : List α} (h : view (items r depth count) input = some (as, rest)) :
    skipNested (depth + 1) count 1 input = some ((), rest) := by
  obtain ⟨reversed, middle, hfold, h⟩ := view_bind_eq_some.mp h
  obtain ⟨-, rfl⟩ := Prod.mk.inj (Option.some.inj h)
  refine Count.fold_skips (fun reversed input reversed' rest h => ?_)
    (view_eq_some.mpr ⟨middle.property, hfold⟩)
  obtain ⟨a, middle, ha, h⟩ := view_bind_eq_some.mp h
  obtain ⟨-, rfl⟩ := Prod.mk.inj (Option.some.inj h)
  exact view_skipPart_one (hr _ _ _ _ (view_eq_some.mpr ⟨middle.property, ha⟩))

theorem skippable_bytes : Skippable bytes := by
  intro depth input a rest h
  obtain ⟨⟨head, depth'⟩, middle, hhead, h⟩ := view_bind_eq_some.mp h
  refine view_skip_of_head hhead ?_
  have hitems : ∀ (depth : Nat) (count : Count), outcome (behind middle fun input =>
      (fun result => (List.map UInt8.ofNat result.1, result.2)) <$>
        items (natural 256) depth count input) = some (a, rest) →
      skipNested (depth + 1) count 1 middle.val = some ((), rest) := by
    intro depth count h
    rw [outcome_behind, view_map (items (natural 256) depth count)] at h
    obtain ⟨as, middle', has, h⟩ := view_bind_eq_some.mp h
    obtain ⟨-, rfl⟩ := Prod.mk.inj (Option.some.inj h)
    exact skippable_items (skippable_natural 256) (view_eq_some.mpr ⟨middle'.property, has⟩)
  cases head with
  | bytes n => exact view_skipString ((outcome_behind middle (Head.take? n)).symm.trans h)
  | byteChunks => exact view_skipString ((outcome_behind middle (chunks false)).symm.trans h)
  | text n => exact view_skipText (fun b _ => b) ((outcome_behind middle _).symm.trans h)
  | textChunks => exact view_skipText (fun b _ => b) ((outcome_behind middle _).symm.trans h)
  | array n =>
    cases depth' with
    | zero => exact nomatch h
    | succ depth' => exact hitems depth' (.exactly n) h
  | elements =>
    cases depth' with
    | zero => exact nomatch h
    | succ depth' => exact hitems depth' .untilStop h
  | _ => exact nomatch h

theorem skippable_text : Skippable text := by
  intro depth input s rest h
  obtain ⟨⟨head, depth'⟩, middle, hhead, h⟩ := view_bind_eq_some.mp h
  refine view_skip_of_head hhead ?_
  -- what has been read as a text may be skipped as a string of either kind
  have hchecked : ∀ {f : (input : Bytes) → Except Fault (Bytes × Remaining input)},
      outcome (behind middle fun input => do
        let result ← f input
        let s ← utf8 result.1
        return (s, result.2)) = some (s, rest) →
      view (skipString f) middle.val = some ((), rest) ∧
        view (skipText f) middle.val = some ((), rest) := by
    intro f h
    have h := (outcome_behind middle _).symm.trans h
    obtain ⟨b, middle', hb, hrest⟩ := view_bind_eq_some.mp h
    obtain ⟨_, hrest⟩ := outcome_eq_some.mp hrest
    obtain ⟨s, -, hrest⟩ := bind_eq_ok.mp hrest
    obtain ⟨-, rfl⟩ := Prod.mk.inj (Except.ok.inj hrest)
    exact ⟨view_skipString (view_eq_some.mpr ⟨_, hb⟩), view_skipText (fun _ s => s) h⟩
  cases head with
  | bytes n => exact (hchecked h).1
  | byteChunks => exact (hchecked h).1
  | text n => exact (hchecked h).2
  | textChunks => exact (hchecked h).2
  | _ => exact nomatch h

end Reader

/-! ## Records -/

namespace Fields

variable {αs : List Type} {depth : Nat} {input rest : Bytes}

/-- Whatever the readers of the fields take may be skipped. -/
def AllSkippable : {αs : List Type} → Fields αs → Prop
  | _, nil => True
  | _, cons _ _ _ read rest => Reader.Skippable read ∧ rest.AllSkippable

section Keys

variable {fields : Fields αs} {f : (input : Bytes) → Except Fault (Bytes × Remaining input)}
  {middle : Rest input} {i : Nat}

/-- Behind its head, a name is taken and looked up. -/
theorem named_eq_some : outcome (Reader.behind middle fun input =>
    (fun result => (fields.indexOf result.1, result.2)) <$> f input) = some (i, rest) ↔
      ∃ b, view f middle.val = some (b, rest) ∧ fields.indexOf b = i := by
  rw [Reader.outcome_behind, view_map f, view_bind_eq_some]
  constructor
  · rintro ⟨b, middle', hb, h⟩
    obtain ⟨hi, rfl⟩ := Prod.mk.inj (Option.some.inj h)
    exact ⟨b, view_eq_some.mpr ⟨middle'.property, hb⟩, hi⟩
  · rintro ⟨b, hb, rfl⟩
    obtain ⟨hle, hb⟩ := view_eq_some.mp hb
    exact ⟨b, ⟨rest, hle⟩, hb, rfl⟩

/-- So is a name that has to be a text. -/
theorem namedText_eq_some : outcome (Reader.behind middle fun input => do
    let result ← f input
    let _ ← Reader.utf8 result.1
    return (fields.indexOf result.1, result.2)) = some (i, rest) ↔
      ∃ b s, view f middle.val = some (b, rest) ∧ Reader.utf8 b = .ok s ∧
        fields.indexOf b = i := by
  refine (iff_of_eq (congrArg (· = _) (Reader.outcome_behind middle _))).trans ?_
  rw [view_bind_eq_some]
  constructor
  · rintro ⟨b, middle', hb, h⟩
    obtain ⟨_, h⟩ := outcome_eq_some.mp h
    obtain ⟨s, hs, h⟩ := bind_eq_ok.mp h
    obtain ⟨hi, rfl⟩ := Prod.mk.inj (Except.ok.inj h)
    exact ⟨b, s, view_eq_some.mpr ⟨_, hb⟩, hs, hi⟩
  · rintro ⟨b, s, hb, hs, rfl⟩
    obtain ⟨hle, hb⟩ := view_eq_some.mp hb
    exact ⟨b, ⟨rest, hle⟩, hb, outcome_eq_some.mpr ⟨hle, bind_eq_ok.mpr ⟨s, hs, rfl⟩⟩⟩

/-- A key is a number or a name, whatever the fields are. -/
theorem exists_key (h : view (fields.key depth) input = some (i, rest)) :
    ∃ k : Nat ⊕ Bytes, k.elim id fields.indexOf = i ∧ ∀ {βs : List Type} (others : Fields βs),
      view (others.key depth) input = some (k.elim id others.indexOf, rest) := by
  obtain ⟨⟨head, depth'⟩, middle, hhead, h⟩ := view_bind_eq_some.mp h
  cases head with
  | unsigned n =>
    obtain ⟨rfl, rfl⟩ := Prod.mk.inj (Option.some.inj h)
    exact ⟨.inl n, rfl, fun others => view_bind_eq_some.mpr ⟨_, middle, hhead, rfl⟩⟩
  | bytes n | byteChunks =>
    obtain ⟨b, hb, rfl⟩ := named_eq_some.mp h
    exact ⟨.inr b, rfl, fun others =>
      view_bind_eq_some.mpr ⟨_, middle, hhead, named_eq_some.mpr ⟨b, hb, rfl⟩⟩⟩
  | text n | textChunks =>
    obtain ⟨b, s, hb, hs, rfl⟩ := namedText_eq_some.mp h
    exact ⟨.inr b, rfl, fun others =>
      view_bind_eq_some.mpr ⟨_, middle, hhead, namedText_eq_some.mpr ⟨b, s, hb, hs, rfl⟩⟩⟩
  | _ => exact nomatch h

end Keys

theorem skippable_key (fields : Fields αs) : Reader.Skippable fields.key := by
  intro depth input i rest h
  obtain ⟨⟨head, depth'⟩, middle, hhead, h⟩ := view_bind_eq_some.mp h
  refine Reader.view_skip_of_head hhead ?_
  cases head with
  | unsigned n =>
    obtain ⟨-, rfl⟩ := Prod.mk.inj (Option.some.inj h)
    rfl
  | bytes n | byteChunks =>
    obtain ⟨b, hb, -⟩ := named_eq_some.mp h
    exact Reader.view_skipString hb
  | text n | textChunks =>
    exact Reader.view_skipText (fun b _ => fields.indexOf b)
      ((Reader.outcome_behind middle _).symm.trans h)
  | _ => exact nomatch h

theorem skippable_put {fields : Fields αs} (h : fields.AllSkippable) (i : Nat) (slots : Slots αs) :
    Reader.Skippable (fields.put i slots) := by
  induction fields generalizing i with
  | nil => exact Reader.skippable_skip
  | cons name absent beyond read rest ih =>
    obtain ⟨hread, hrest⟩ := h
    obtain ⟨found, slots⟩ := slots
    cases i with
    | zero =>
      cases found with
      | some a => exact fun _ _ _ _ h => nomatch h
      | none => exact hread.map fun a => (some a, slots)
    | succ i => exact (ih hrest i slots).map _

section Put

variable {name : String} {absent beyond : Option α} {read : Reader α} {fields : Fields αs}
  {slots : Slots αs} {slots' : Slots (α :: αs)}

theorem put_zero_eq_some :
    view ((cons name absent beyond read fields).put 0 (none, slots) depth) input =
        some (slots', rest) ↔
      ∃ a, view (read depth) input = some (a, rest) ∧ (some a, slots) = slots' :=
  Reader.view_map_eq_some (r := read) (f := fun a => (some a, slots))

theorem put_succ_eq_some {found : Option α} {i : Nat} :
    view ((cons name absent beyond read fields).put (i + 1) (found, slots) depth) input =
        some (slots', rest) ↔
      ∃ slots₁, view (fields.put i slots depth) input = some (slots₁, rest) ∧
        (found, slots₁) = slots' :=
  Reader.view_map_eq_some (r := fields.put i slots) (f := fun slots => (found, slots))

end Put

/-- An entry is read key first. -/
theorem view_entry_eq_some {fields : Fields αs} {slots slots' : Slots αs} :
    view ((fields.key.andThen (fields.put · slots)) depth) input = some (slots', rest) ↔
      ∃ i middle, view (fields.key depth) input = some (i, middle) ∧
        view (fields.put i slots depth) middle = some (slots', rest) := by
  constructor
  · intro h
    obtain ⟨i, middle, hkey, h⟩ := view_bind_eq_some.mp h
    refine ⟨i, middle.val, view_eq_some.mpr ⟨middle.property, hkey⟩, ?_⟩
    exact (outcome_bind fun _ _ => rfl).symm.trans h
  · rintro ⟨i, middle, hkey, h⟩
    obtain ⟨hlt, hkey⟩ := view_eq_some.mp hkey
    refine view_bind_eq_some.mpr ⟨i, ⟨middle, hlt⟩, hkey, ?_⟩
    exact (outcome_bind fun _ _ => rfl).trans h

theorem skip_readEntries {fields : Fields αs} (hfields : fields.AllSkippable) {count : Count}
    {values : Values αs} (h : view (fields.readEntries depth count) input = some (values, rest)) :
    Reader.skipNested (depth + 1) count 2 input = some ((), rest) := by
  obtain ⟨slots, middle, hfold, h⟩ := view_bind_eq_some.mp h
  obtain ⟨_, h⟩ := outcome_eq_some.mp h
  obtain ⟨values', -, h⟩ := bind_eq_ok.mp h
  obtain ⟨-, rfl⟩ := Prod.mk.inj (Except.ok.inj h)
  refine Count.fold_skips (fun slots input slots' rest h => ?_) (view_eq_some.mpr ⟨_, hfold⟩)
  obtain ⟨i, middle, hkey, hput⟩ := view_entry_eq_some.mp h
  exact Reader.view_skipPart_two (skippable_key fields _ _ _ _ hkey)
    (skippable_put hfields i slots _ _ _ _ hput)

/-- Elements that are not there are not skipped either. -/
theorem skip_readElements {fields : Fields αs} (hfields : fields.AllSkippable) {count : Count}
    {values : Values αs} (h : view (fields.readElements depth count) input = some (values, rest)) :
    Reader.skipNested (depth + 1) count 1 input = some ((), rest) := by
  induction fields generalizing count input with
  | nil =>
    obtain ⟨_, hstop⟩ := readElements_nil_eq_some.mp h
    exact Count.view_fold_finished hstop
  | cons name absent beyond read fields ih =>
    obtain ⟨hread, hfields⟩ := hfields
    obtain ⟨a, values⟩ := values
    obtain ⟨-, -, hrest⟩ | ⟨hnext, middle, ha, hrest⟩ := readElements_cons_eq_some.mp h
    · -- the array has ended, and its end is still to be taken
      exact ih hfields hrest
    · exact (Count.view_fold_next hnext (Reader.view_skipPart_one (hread _ _ _ _ ha))).trans
        (ih hfields hrest)

/-- A record is skipped as the map or the array that it is. -/
theorem skippable_read {fields : Fields αs} (hfields : fields.AllSkippable) :
    Reader.Skippable fields.read := by
  intro depth input values rest h
  obtain ⟨⟨head, depth'⟩, middle, hhead, h⟩ := view_bind_eq_some.mp h
  refine Reader.view_skip_of_head hhead ?_
  cases head <;> cases depth'
  case map.succ n depth =>
    exact skip_readEntries hfields ((Reader.outcome_behind middle _).symm.trans h)
  case entries.succ depth =>
    exact skip_readEntries hfields ((Reader.outcome_behind middle _).symm.trans h)
  case array.succ n depth =>
    exact skip_readElements hfields ((Reader.outcome_behind middle _).symm.trans h)
  case elements.succ depth =>
    exact skip_readElements hfields ((Reader.outcome_behind middle _).symm.trans h)
  all_goals exact nomatch h

end Fields

end Cbor

end SealedTunnel
