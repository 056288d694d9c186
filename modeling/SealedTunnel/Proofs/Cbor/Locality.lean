import SealedTunnel.Proofs.Cbor.View

/-!
# Readers are local

What any of the readers takes from the front of its input does not depend on
what follows, for known and for unknown lengths, behind tags and at any depth.

* `Count.local_fold` — repetition, where a reader that looks ahead for a break is the delicate part.
* `Reader.local_head`, `Reader.local_skip`, `Reader.local_bytes`, `Reader.local_text`, … — values.
* `Fields.local_read` — records.
* `decode_takes` — what is decoded is taken as a whole.
-/

namespace SealedTunnel

namespace Cbor

variable {α β σ : Type}

/-! ## Repetition -/

namespace Count

/-- Whether no item follows; nothing if the input ends before a break. -/
def stops? (count : Count) (input : Bytes) : Option Bool :=
  match count.finished? input with
  | .ok rest => some rest.isSome
  | .error _ => none

/-- Looking for a break takes one byte, or none if the number of items is known: what follows the
bytes that decide it is of no interest. -/
theorem stops?_append {count : Count} {p : Bytes} (h : count.stops? p ≠ none) (s t : Bytes) :
    count.stops? (p ++ s) = count.stops? (p ++ t) := by
  match count, p with
  | exactly 0, p => rfl
  | exactly (n + 1), p => rfl
  | untilStop, [] => exact absurd rfl h
  | untilStop, x :: p =>
    simp only [stops?, List.cons_append, finished?]
    by_cases hx : x = 0xff
    · simp only [if_pos hx, Option.isSome_some]
    · simp only [if_neg hx, Option.isSome_none]

theorem stops?_ne_none (count : Count) {input : Bytes} (h : input ≠ []) :
    count.stops? input ≠ none := by
  obtain ⟨x, p, rfl⟩ := List.exists_cons_of_ne_nil h
  match count with
  | exactly 0 | exactly (n + 1) => exact nofun
  | untilStop =>
    simp only [stops?, finished?]
    by_cases hx : x = 0xff
    · simp only [if_pos hx]
      exact nofun
    · simp only [if_neg hx]
      exact nofun

theorem finished?_eq_none {count : Count} {input : Bytes} :
    count.finished? input = .ok none ↔ count.stops? input = some false := by
  simp only [stops?]
  rcases count.finished? input with fault | _ | rest
  · exact ⟨nofun, nofun⟩
  · exact ⟨fun _ => rfl, fun _ => rfl⟩
  · exact ⟨nofun, nofun⟩

theorem exists_finished? {count : Count} {input : Bytes} :
    (∃ rest, count.finished? input = .ok (some rest)) ↔ count.stops? input = some true := by
  simp only [stops?]
  rcases count.finished? input with fault | _ | rest
  · exact ⟨fun ⟨_, h⟩ => (nomatch h), nofun⟩
  · exact ⟨fun ⟨_, h⟩ => (nomatch h), nofun⟩
  · exact ⟨fun _ => rfl, fun _ => ⟨rest, rfl⟩⟩

/-- The end of a repetition: nothing, or a break. -/
theorem finished?_eq_some {count : Count} {input : Bytes} {rest : Remaining input}
    (h : count.finished? input = .ok (some rest)) : ∃ p, input = p ++ rest.val ∧
      ∀ tail, ∃ hle, count.finished? (p ++ tail) = .ok (some ⟨tail, hle⟩) := by
  match count, input with
  | exactly 0, input =>
    obtain rfl := Option.some.inj (Except.ok.inj h)
    exact ⟨[], rfl, fun tail => ⟨Nat.le_refl _, rfl⟩⟩
  | exactly (n + 1), input => exact nomatch Except.ok.inj h
  | untilStop, [] => exact nomatch h
  | untilStop, x :: input =>
    simp only [finished?] at h
    split at h
    · rename_i hx
      obtain rfl := Option.some.inj (Except.ok.inj h)
      exact ⟨[x], rfl, fun tail => ⟨Nat.le_succ _, if_pos hx⟩⟩
    · exact nomatch Except.ok.inj h

variable {step : σ → (input : Bytes) → Except Fault (σ × Rest input)}

theorem view_fold_finished {count : Count} {s : σ} {input : Bytes} {rest : Remaining input}
    (h : count.finished? input = .ok (some rest)) :
    view (count.fold step s) input = some (s, rest.val) := by
  unfold view fold
  rw [h]
  rfl

theorem view_fold_next {count : Count} {s s' : σ} {input rest : Bytes}
    (h : count.finished? input = .ok none) (hstep : view (step s) input = some (s', rest)) :
    view (count.fold step s) input = view (count.pred.fold step s') rest := by
  obtain ⟨hlt, hs⟩ := view_eq_some.mp hstep
  simp only [view]
  rw [fold, h]
  simp only [hs]
  cases count.pred.fold step s' rest <;> rfl

/-- A repetition takes what it takes whatever follows, if each item does. -/
theorem local_fold (hstep : ∀ s, Local (view (step s))) (count : Count) (s : σ) :
    Local (view (count.fold step s)) := by
  intro input a rest h
  replace h : outcome (count.fold step s input) = some (a, rest) := h
  fun_induction fold count step s input with
  | case1 | case3 | case4 => exact nomatch h
  | case2 count s input rest' hfinished =>
    obtain ⟨rfl, rfl⟩ := Prod.mk.inj (Option.some.inj h)
    obtain ⟨p, hp, htail⟩ := finished?_eq_some hfinished
    refine ⟨p, hp, fun tail => ?_⟩
    obtain ⟨hle, hfinished'⟩ := htail tail
    exact view_fold_finished hfinished'
  | case5 count s input hfinished s' rest' hlt hs s'' rest'' hle hrest ih =>
    obtain ⟨rfl, rfl⟩ := Prod.mk.inj (Option.some.inj h)
    have hview : view (step s) input = some (s', rest') := view_eq_some.mpr ⟨hlt, hs⟩
    obtain ⟨p, hp, htakes⟩ := hstep s _ _ _ hview
    obtain ⟨q, hq, htakes'⟩ := ih (by rw [hrest]; rfl)
    -- the item is not empty, so it shows that no break comes before it
    have hsees := stops?_ne_none count (ne_nil_of_view (htakes rest'))
    have hstops := finished?_eq_none.mp hfinished
    refine ⟨p ++ q, ?_, fun tail => ?_⟩
    · exact hp.trans ((congrArg (p ++ ·) hq).trans (List.append_assoc ..).symm)
    · rw [hp, stops?_append hsees rest' (q ++ tail)] at hstops
      rw [List.append_assoc]
      rw [view_fold_next (finished?_eq_none.mpr hstops) (htakes (q ++ tail))]
      exact htakes' tail

end Count

namespace Reader

/-! ## Values in parts -/

/-- What a reader takes does not depend on what follows, at any depth. -/
def IsLocal (r : Reader α) : Prop := ∀ depth, Local (view (r depth))

theorem IsLocal.map {r : Reader α} (hr : r.IsLocal) (f : α → β) : (r.map f).IsLocal :=
  fun depth => local_bind (hr depth) fun a => ⟨_, local_pure (f a), fun _ _ => rfl⟩

theorem view_map_eq_some {r : Reader α} {f : α → β} {depth : Nat} {input rest : Bytes} {b : β} :
    view (r.map f depth) input = some (b, rest) ↔
      ∃ a, view (r depth) input = some (a, rest) ∧ f a = b := by
  constructor
  · intro h
    obtain ⟨a, middle, ha, h⟩ := view_bind_eq_some.mp h
    obtain ⟨hb, rfl⟩ := Prod.mk.inj (Option.some.inj h)
    exact ⟨a, view_eq_some.mpr ⟨middle.property, ha⟩, hb⟩
  · rintro ⟨a, ha, rfl⟩
    obtain ⟨hlt, ha⟩ := view_eq_some.mp ha
    exact view_bind_eq_some.mpr ⟨a, ⟨rest, hlt⟩, ha, rfl⟩

theorem IsLocal.andThen {r : Reader α} {f : α → Reader β} (hr : r.IsLocal)
    (hf : ∀ a, (f a).IsLocal) : (r.andThen f).IsLocal := by
  intro depth
  exact local_bind (hr depth) fun a => ⟨_, hf a depth, fun _ _ => outcome_bind fun _ _ => rfl⟩

/-- What a head decides on is read after it. -/
theorem outcome_behind {input : Bytes} (rest : Rest input)
    (body : (input : Bytes) → Except Fault (α × Remaining input)) :
    outcome (behind rest body) = view body rest.val := by
  simp only [behind, view]
  exact outcome_bind fun _ _ => rfl

/-! ## Heads behind tags -/

theorem local_head (depth : Nat) : Local (view (Reader.head depth)) := by
  induction depth with
  | zero =>
    unfold view
    simp only [Reader.head]
    refine local_bind Head.local_read fun head => ?_
    cases head with
    | tag n => exact ⟨_, local_fail, fun _ _ => rfl⟩
    | _ => exact ⟨_, local_pure (_, _), fun _ _ => rfl⟩
  | succ depth ih =>
    unfold view
    simp only [Reader.head]
    refine local_bind Head.local_read fun head => ?_
    cases head with
    | tag n =>
      exact ⟨_, ih, fun _ _ => outcome_bind fun _ _ => rfl⟩
    | _ => exact ⟨_, local_pure (_, _), fun _ _ => rfl⟩

/-! ## Strings -/

theorem local_chunks (texts : Bool) : Local (view (chunks texts)) := by
  refine Count.local_fold (fun joined => ?_) .untilStop []
  refine local_bind Head.local_read fun head => ?_
  cases head <;> cases texts
  case bytes.false n | text.true n =>
    refine ⟨_, ?_, fun _ rest => outcome_behind rest _⟩
    exact local_bind (Head.local_take? n) fun b => ⟨_, local_pure (joined ++ b), fun _ _ => rfl⟩
  all_goals exact ⟨_, local_fail, fun _ _ => rfl⟩

/-! ## Anything -/

/-- Skipping what is nested behind a head: `each` values for every item, two in a map. -/
def skipInside (inner : Option ((input : Bytes) → Except Fault (Unit × Rest input)))
    (count : Count) (each : Nat) {input : Bytes} (rest : Rest input) :
    Except Fault (Unit × Rest input) :=
  match inner with
  | none => .error .malformed
  | some inner =>
    behind rest (count.fold (fun _ input => do
      let ((), ⟨rest, h⟩) ← inner input
      if each = 1 then return ((), ⟨rest, h⟩)
      else
        let ((), ⟨rest', h'⟩) ← inner rest
        return ((), ⟨rest', Rest.trans h' h⟩)) ())

variable {inner : Option ((input : Bytes) → Except Fault (Unit × Rest input))}

theorem local_skipInside (h : ∀ f ∈ inner, Local (view f)) (count : Count) (each : Nat) :
    ∃ g, Local g ∧ ∀ (input : Bytes) (rest : Rest input),
      outcome (skipInside inner count each rest) = g rest.val := by
  cases inner with
  | none => exact ⟨_, local_fail, fun _ _ => rfl⟩
  | some inner =>
    refine ⟨_, Count.local_fold (fun _ => ?_) count (), fun _ rest => outcome_behind rest _⟩
    have hinner := h inner rfl
    refine local_bind hinner fun _ => ?_
    by_cases heach : each = 1
    · simp only [if_pos heach]
      exact ⟨_, local_pure (), fun _ _ => rfl⟩
    · simp only [if_neg heach]
      exact ⟨_, hinner, fun _ _ => outcome_bind fun _ _ => rfl⟩

theorem local_skipWith (h : ∀ f ∈ inner, Local (view f)) : Local (view (skipWith inner)) := by
  -- the items of an array come one at a time, the entries of a map in pairs
  have hnested := local_skipInside h
  refine local_bind Head.local_read fun head => ?_
  cases head with
  | unsigned | negative | flag | null | undefined | float =>
    exact ⟨_, local_pure (), fun _ _ => rfl⟩
  | bytes n =>
    refine ⟨_, ?_, fun _ rest => outcome_behind rest _⟩
    exact local_bind (Head.local_take? n) fun _ => ⟨_, local_pure (), fun _ _ => rfl⟩
  | byteChunks =>
    refine ⟨_, ?_, fun _ rest => outcome_behind rest _⟩
    exact local_bind (local_chunks false) fun _ => ⟨_, local_pure (), fun _ _ => rfl⟩
  | text n =>
    exact ⟨_, local_bind_check (Head.local_take? n) utf8 fun _ _ => (),
      fun _ rest => outcome_behind rest _⟩
  | textChunks =>
    exact ⟨_, local_bind_check (local_chunks true) utf8 fun _ _ => (),
      fun _ rest => outcome_behind rest _⟩
  | array n => exact hnested (.exactly n) 1
  | elements => exact hnested .untilStop 1
  | map n => exact hnested (.exactly n) 2
  | entries => exact hnested .untilStop 2
  | tag n => exact hnested (.exactly 1) 1
  | stop => exact ⟨_, local_fail, fun _ _ => rfl⟩

theorem local_skip : skip.IsLocal := by
  intro depth
  induction depth with
  | zero => exact local_skipWith fun f hf => nomatch hf
  | succ depth ih =>
    refine local_skipWith fun f hf => ?_
    obtain rfl := Option.mem_some.mp hf
    exact ih

/-! ## Values of one kind -/

theorem local_natural (bound : Nat) : (natural bound).IsLocal := by
  intro depth
  refine local_bind (local_head depth) fun (head, _) => ?_
  cases head with
  | unsigned n =>
    dsimp only
    by_cases hn : n < bound
    · simp only [if_pos hn]
      exact ⟨_, local_pure n, fun _ _ => rfl⟩
    · simp only [if_neg hn]
      exact ⟨_, local_fail, fun _ _ => rfl⟩
  | _ => exact ⟨_, local_fail, fun _ _ => rfl⟩

theorem local_items {r : Reader α} (hr : r.IsLocal) (depth : Nat) (count : Count) :
    Local (view (items r depth count)) := by
  refine local_bind (Count.local_fold (fun reversed => ?_) count []) fun reversed =>
    ⟨_, local_pure reversed.reverse, fun _ _ => rfl⟩
  exact local_bind (hr depth) fun a => ⟨_, local_pure (a :: reversed), fun _ _ => rfl⟩

theorem local_bytes : bytes.IsLocal := by
  intro depth
  have hitems : ∀ depth count, Local (view fun input =>
      (fun result => (List.map UInt8.ofNat result.1, result.2)) <$>
        items (natural 256) depth count input) :=
    fun depth count => local_map (local_items (local_natural 256) depth count) _
  have htext : ∀ {f : (input : Bytes) → Except Fault (Bytes × Remaining input)}, Local (view f) →
      Local (view fun input => do
        let result ← f input
        let _ ← utf8 result.1
        return result) := fun hf => local_bind_check hf utf8 fun b _ => b
  refine local_bind (local_head depth) fun (head, depth) => ?_
  cases head with
  | bytes n => exact ⟨_, Head.local_take? n, fun _ rest => outcome_behind rest _⟩
  | byteChunks => exact ⟨_, local_chunks false, fun _ rest => outcome_behind rest _⟩
  | text n => exact ⟨_, htext (Head.local_take? n), fun _ rest => outcome_behind rest _⟩
  | textChunks => exact ⟨_, htext (local_chunks true), fun _ rest => outcome_behind rest _⟩
  | array n =>
    cases depth with
    | zero => exact ⟨_, local_fail, fun _ _ => rfl⟩
    | succ depth => exact ⟨_, hitems depth (.exactly n), fun _ rest => outcome_behind rest _⟩
  | elements =>
    cases depth with
    | zero => exact ⟨_, local_fail, fun _ _ => rfl⟩
    | succ depth => exact ⟨_, hitems depth .untilStop, fun _ rest => outcome_behind rest _⟩
  | _ => exact ⟨_, local_fail, fun _ _ => rfl⟩

theorem local_text : text.IsLocal := by
  intro depth
  have htext : ∀ {f : (input : Bytes) → Except Fault (Bytes × Remaining input)}, Local (view f) →
      Local (view fun input => do
        let result ← f input
        let s ← utf8 result.1
        return (s, result.2)) := fun hf => local_bind_check hf utf8 fun _ s => s
  refine local_bind (local_head depth) fun (head, depth) => ?_
  cases head with
  | bytes n | text n => exact ⟨_, htext (Head.local_take? n), fun _ rest => outcome_behind rest _⟩
  | byteChunks => exact ⟨_, htext (local_chunks false), fun _ rest => outcome_behind rest _⟩
  | textChunks => exact ⟨_, htext (local_chunks true), fun _ rest => outcome_behind rest _⟩
  | _ => exact ⟨_, local_fail, fun _ _ => rfl⟩

/-- The first byte of a value shows whether it is null. -/
theorem IsLocal.optional {r : Reader α} (hr : r.IsLocal) : (Reader.optional r).IsLocal := by
  intro depth input a? rest h
  match input, h with
  | x :: input, h =>
    by_cases hx : x = 0xf6
    · subst hx
      obtain ⟨rfl, rfl⟩ := Prod.mk.inj (Option.some.inj h)
      exact ⟨[0xf6], rfl, fun _ => rfl⟩
    · have hread : ∀ input, view (Reader.optional r depth) (x :: input) =
          view (r.map some depth) (x :: input) := fun input => congrArg outcome (if_neg hx)
      obtain ⟨p, hp, htakes⟩ := (hr.map some) depth _ _ _ ((hread input).symm.trans h)
      obtain ⟨y, p, rfl⟩ := List.exists_cons_of_ne_nil (ne_nil_of_view (htakes rest))
      obtain ⟨rfl, -⟩ := List.cons.inj hp
      exact ⟨x :: p, hp, fun tail => (hread (p ++ tail)).trans (htakes tail)⟩

end Reader

/-! ## Records -/

namespace Fields

variable {αs : List Type}

/-- The values of all fields are read by local readers. -/
def AllLocal : {αs : List Type} → Fields αs → Prop
  | _, nil => True
  | _, cons _ _ _ read rest => read.IsLocal ∧ rest.AllLocal

theorem local_put {fields : Fields αs} (h : fields.AllLocal) (i : Nat) (slots : Slots αs) :
    (fields.put i slots).IsLocal := by
  induction fields generalizing i with
  | nil => exact Reader.local_skip
  | cons name absent beyond read rest ih =>
    obtain ⟨hread, hrest⟩ := h
    obtain ⟨found, slots⟩ := slots
    cases i with
    | zero =>
      cases found with
      | some a => exact fun _ => local_fail
      | none => exact hread.map fun a => (some a, slots)
    | succ i => exact (ih hrest i slots).map _

theorem local_key (fields : Fields αs) : fields.key.IsLocal := by
  intro depth
  have hbytes : ∀ {f : (input : Bytes) → Except Fault (Bytes × Remaining input)}, Local (view f) →
      Local (view fun input => (fun result => (fields.indexOf result.1, result.2)) <$> f input) :=
    fun hf => local_map hf _
  have htext : ∀ {f : (input : Bytes) → Except Fault (Bytes × Remaining input)}, Local (view f) →
      Local (view fun input => do
        let result ← f input
        let _ ← Reader.utf8 result.1
        return (fields.indexOf result.1, result.2)) :=
    fun hf => local_bind_check hf Reader.utf8 fun b _ => fields.indexOf b
  refine local_bind (Reader.local_head depth) fun (head, depth) => ?_
  cases head with
  | unsigned n => exact ⟨_, local_pure n, fun _ _ => rfl⟩
  | bytes n => exact ⟨_, hbytes (Head.local_take? n), fun _ rest => Reader.outcome_behind rest _⟩
  | byteChunks =>
    exact ⟨_, hbytes (Reader.local_chunks false), fun _ rest => Reader.outcome_behind rest _⟩
  | text n => exact ⟨_, htext (Head.local_take? n), fun _ rest => Reader.outcome_behind rest _⟩
  | textChunks =>
    exact ⟨_, htext (Reader.local_chunks true), fun _ rest => Reader.outcome_behind rest _⟩
  | _ => exact ⟨_, local_fail, fun _ _ => rfl⟩

theorem local_readEntries {fields : Fields αs} (h : fields.AllLocal) (depth : Nat) (count : Count) :
    Local (view (fields.readEntries depth count)) := by
  refine local_bind_check (Count.local_fold (fun slots => ?_) count fields.empty) fields.close
    fun _ values => values
  exact (local_key fields).andThen (fun i => local_put h i slots) depth

variable {depth : Nat} {count : Count} {input rest : Bytes}

theorem readElements_nil_eq_some {u : Unit} :
    view (nil.readElements depth count) input = some (u, rest) ↔
      ∃ h, count.finished? input = .ok (some ⟨rest, h⟩) := by
  rw [view_eq_some]
  constructor
  · rintro ⟨hrest, h⟩
    obtain ⟨stop, hstop, h⟩ := bind_eq_ok.mp h
    cases stop with
    | none => exact nomatch h
    | some rest' =>
      obtain ⟨-, rfl⟩ := Prod.mk.inj (Except.ok.inj h)
      exact ⟨hrest, hstop⟩
  · rintro ⟨hrest, h⟩
    exact ⟨hrest, bind_eq_ok.mpr ⟨_, h, rfl⟩⟩

/-- Either the array ends before a field or the field comes next. -/
theorem readElements_cons_eq_some {α : Type} {name : String} {absent beyond : Option α}
    {read : Reader α} {fields : Fields αs} {a : α} {values : Values αs} :
    view ((cons name absent beyond read fields).readElements depth count) input =
        some ((a, values), rest) ↔
      (∃ stop, count.finished? input = .ok (some stop)) ∧ beyond = some a ∧
        view (fields.readElements depth count) input = some (values, rest) ∨
      count.finished? input = .ok none ∧ ∃ middle, view (read depth) input = some (a, middle) ∧
        view (fields.readElements depth count.pred) middle = some (values, rest) := by
  rw [view_eq_some, view_eq_some]
  constructor
  · rintro ⟨hrest, h⟩
    obtain ⟨stop, hstop, h⟩ := bind_eq_ok.mp h
    cases stop with
    | some stop =>
      cases beyond with
      | none => cases h
      | some a' =>
        obtain ⟨⟨values', rest'⟩, hvalues, h⟩ := bind_eq_ok.mp h
        cases h
        exact .inl ⟨⟨stop, hstop⟩, rfl, hrest, hvalues⟩
    | none =>
      obtain ⟨⟨a', middle⟩, ha, h⟩ := bind_eq_ok.mp h
      obtain ⟨⟨values', rest'⟩, hvalues, h⟩ := bind_eq_ok.mp h
      cases h
      refine .inr ⟨hstop, middle.val, view_eq_some.mpr ⟨middle.property, ha⟩, ?_⟩
      exact view_eq_some.mpr ⟨rest'.property, hvalues⟩
  · rintro (⟨⟨stop, hstop⟩, rfl, hrest, h⟩ | ⟨hstop, middle, ha, h⟩)
    · exact ⟨hrest, bind_eq_ok.mpr ⟨_, hstop, bind_eq_ok.mpr ⟨_, h, rfl⟩⟩⟩
    · obtain ⟨hmiddle, ha⟩ := view_eq_some.mp ha
      obtain ⟨hrest, h⟩ := view_eq_some.mp h
      exact ⟨_, bind_eq_ok.mpr ⟨_, hstop, bind_eq_ok.mpr ⟨_, ha, bind_eq_ok.mpr ⟨_, h, rfl⟩⟩⟩⟩

theorem stops?_of_readElements {fields : Fields αs} {values : Values αs}
    (h : view (fields.readElements depth count) input = some (values, rest)) :
    count.stops? input ≠ none := by
  cases fields with
  | nil =>
    obtain ⟨_, h⟩ := readElements_nil_eq_some.mp h
    exact Count.exists_finished?.mp ⟨_, h⟩ ▸ nofun
  | cons name absent beyond read fields =>
    rcases readElements_cons_eq_some.mp h with ⟨hstop, -, -⟩ | ⟨hstop, -⟩
    · exact Count.exists_finished?.mp hstop ▸ nofun
    · exact Count.finished?_eq_none.mp hstop ▸ nofun

/-- Elements that are not there are read from nothing, so that the break of the array is seen once
for each of them before it is taken. -/
theorem local_readElements {fields : Fields αs} (h : fields.AllLocal) (depth : Nat)
    (count : Count) : Local (view (fields.readElements depth count)) := by
  intro input values rest hvalues
  induction fields generalizing count input with
  | nil =>
    obtain ⟨hrest, hvalues⟩ := readElements_nil_eq_some.mp hvalues
    obtain ⟨p, hp, htail⟩ := Count.finished?_eq_some hvalues
    exact ⟨p, hp, fun tail => readElements_nil_eq_some.mpr (htail tail)⟩
  | cons name absent beyond read fields ih =>
    obtain ⟨hread, hfields⟩ := h
    obtain ⟨a, values⟩ := values
    rcases readElements_cons_eq_some.mp hvalues with
      ⟨hstop, rfl, hrest⟩ | ⟨hstop, middle, ha, hrest⟩
    · -- no element is left, and what the rest takes shows that
      obtain ⟨p, rfl, hp⟩ := ih hfields _ _ _ hrest
      refine ⟨p, rfl, fun tail => readElements_cons_eq_some.mpr (.inl ⟨?_, rfl, hp tail⟩)⟩
      have hsees : count.stops? p ≠ none := stops?_of_readElements ((List.append_nil p) ▸ hp [])
      rw [Count.exists_finished?] at hstop ⊢
      exact (Count.stops?_append hsees tail rest).trans hstop
    · -- an element follows, and it is not empty
      obtain ⟨p, rfl, hp⟩ := hread depth _ _ _ ha
      obtain ⟨q, rfl, hq⟩ := ih hfields _ _ _ hrest
      refine ⟨p ++ q, (List.append_assoc ..).symm, fun tail => ?_⟩
      have hsees := Count.stops?_ne_none count (ne_nil_of_view (hp (q ++ rest)))
      rw [Count.finished?_eq_none] at hstop
      have hstops := (Count.stops?_append hsees (q ++ tail) (q ++ rest)).trans hstop
      rw [List.append_assoc]
      exact readElements_cons_eq_some.mpr
        (.inr ⟨Count.finished?_eq_none.mpr hstops, q ++ tail, hp _, hq tail⟩)

theorem local_read {fields : Fields αs} (h : fields.AllLocal) : fields.read.IsLocal := by
  intro depth
  refine local_bind (Reader.local_head depth) fun (head, depth) => ?_
  cases head <;> cases depth
  case map.succ n depth =>
    exact ⟨_, local_readEntries h depth (.exactly n), fun _ rest => Reader.outcome_behind rest _⟩
  case entries.succ depth =>
    exact ⟨_, local_readEntries h depth .untilStop, fun _ rest => Reader.outcome_behind rest _⟩
  case array.succ n depth =>
    exact ⟨_, local_readElements h depth (.exactly n), fun _ rest => Reader.outcome_behind rest _⟩
  case elements.succ depth =>
    exact ⟨_, local_readElements h depth .untilStop, fun _ rest => Reader.outcome_behind rest _⟩
  all_goals exact ⟨_, local_fail, fun _ _ => rfl⟩

end Fields

/-! ## Whole inputs -/

/-- What is decoded is taken as a whole. -/
theorem decode_takes {r : Reader α} (hr : r.IsLocal) {b : Bytes} {a : α}
    (h : decode r b = .ok a) : Takes (view (r maxDepth)) b a := by
  obtain ⟨⟨a', rest⟩, hread, h⟩ := bind_eq_ok.mp h
  dsimp only at h
  split at h
  · rename_i hnil
    obtain rfl := Except.ok.inj h
    obtain ⟨p, hp, htakes⟩ := hr maxDepth _ _ _ (view_eq_some.mpr ⟨rest.property, hread⟩)
    rw [hp, hnil, List.append_nil]
    exact htakes
  · exact nomatch h

/-- A value that is taken as a whole is decoded. -/
theorem decode_eq_ok {r : Reader α} {b : Bytes} {a : α} (h : Takes (view (r maxDepth)) b a) :
    decode r b = .ok a := by
  have hnil := h []
  rw [List.append_nil] at hnil
  obtain ⟨hlt, hread⟩ := view_eq_some.mp hnil
  exact bind_eq_ok.mpr ⟨_, hread, rfl⟩

end Cbor

end SealedTunnel
