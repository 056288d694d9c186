import SealedTunnel.Proofs.Cbor.RoundTrip
import SealedTunnel.Proofs.Cbor.Skipping

/-!
# Which field an entry is for

A record is read only if each of its fields is found, and an entry fills no field but the one it
names.

* `Ends` — a reader takes a byte string as a whole, or refuses it.
* `writeString` — a string of either kind; `Reader.view_text_string`, `Fields.view_key_string` —
  what is read from it as a text, and as a name.
* `Fields.found?` — which fields have a value; `Fields.put_found?`, `Fields.close_found?`.
* `Fields.exists_entry_of_read` — a record that is read names each of its fields.
* `Fields.exists_value_of_read` — the value of its first entry is read.
-/

namespace SealedTunnel

namespace Cbor

variable {α β : Type}

/-- A reader in two parts goes on with what its first part has left. -/
theorem view_bind_of_takes {Q Q' : Bytes → Bytes → Prop}
    {f : (input : Bytes) → Except Fault (α × { rest : Bytes // Q rest input })}
    {k : (input : Bytes) → α × { rest : Bytes // Q rest input } →
      Except Fault (β × { rest : Bytes // Q' rest input })}
    {g : View β} {p : Bytes} {a : α} (hf : Takes (view f) p a)
    (hk : ∀ input rest, outcome (k input (a, rest)) = g rest.val) (q : Bytes) :
    view (fun input => f input >>= k input) (p ++ q) = g q := by
  obtain ⟨hrest, ha⟩ := view_eq_some.mp (hf q)
  show outcome (f (p ++ q) >>= k (p ++ q)) = g q
  rw [ha]
  exact hk _ _

/-- If the reader takes anything from an input that starts with `p`, it takes `p`. -/
def Ends (v : View α) (p : Bytes) : Prop := ∀ a q rest, v (p ++ q) = some (a, rest) → rest = q

/-- A value is made of the whole of `p`, or none at all. -/
theorem ends_of_eq {v : View α} {p : Bytes} (a? : Option α)
    (h : ∀ q, v (p ++ q) = a?.map fun a => (a, q)) : Ends v p := by
  intro a q rest hsome
  rw [h] at hsome
  obtain ⟨_, -, heq⟩ := Option.map_eq_some_iff.mp hsome
  exact (Prod.mk.inj heq).2.symm

/-- Items are read one after the other. -/
theorem Count.view_fold_succ_eq_some {σ : Type} {n : Nat}
    {step : σ → (input : Bytes) → Except Fault (σ × Rest input)} {s a : σ} {input rest : Bytes} :
    view ((exactly (n + 1)).fold step s) input = some (a, rest) ↔ ∃ s' middle,
      view (step s) input = some (s', middle) ∧
      view ((exactly n).fold step s') middle = some (a, rest) := by
  cases hstep : view (step s) input with
  | none =>
    have herror : ∃ fault, step s input = .error fault := by
      cases hs : step s input with
      | error fault => exact ⟨fault, rfl⟩
      | ok result =>
        rw [view, hs] at hstep
        cases hstep
    obtain ⟨fault, hfault⟩ := herror
    have hfold : (exactly (n + 1)).fold step s input = .error fault := by
      rw [fold, finished?, hfault]
    constructor
    · intro h
      rw [view, hfold] at h
      cases h
    · rintro ⟨_, _, h, -⟩
      cases h
  | some result =>
    obtain ⟨s', middle⟩ := result
    rw [view_fold_next rfl hstep]
    constructor
    · intro h
      exact ⟨s', middle, rfl, h⟩
    · rintro ⟨_, _, heq, h⟩
      obtain ⟨rfl, rfl⟩ := Prod.mk.inj (Option.some.inj heq)
      exact h

/-! ## Strings -/

/-- A string, as a byte string or a text by its major type. -/
def writeString (major : Nat) (b : Bytes) : Bytes := Head.write major b.length ++ b

/-- What a check makes of a string of known length. -/
theorem view_take?_bind {Q : Bytes → Bytes → Prop} {b : Bytes}
    {k : (input : Bytes) → Bytes × Remaining input →
      Except Fault (β × { rest : Bytes // Q rest input })} (a? : Option β)
    (hk : ∀ input rest, outcome (k input (b, rest)) = a?.map fun a => (a, rest.val)) (q : Bytes) :
    view (fun input => Head.take? b.length input >>= k input) (b ++ q) =
      a?.map fun a => (a, q) :=
  view_bind_of_takes (g := fun q => a?.map fun a => (a, q)) (Head.takes_take? b) hk q

namespace Reader

variable {major : Nat} {b : Bytes} {depth : Nat}

theorem ends_map {r : Reader α} {p : Bytes} (h : Ends (view (r depth)) p) (f : α → β) :
    Ends (view (r.map f depth)) p := by
  intro b q rest hsome
  obtain ⟨a, ha, -⟩ := view_map_eq_some.mp hsome
  exact h a q rest ha

/-- A text is read from a string of either kind. -/
theorem view_text_string (hmajor : major = 2 ∨ major = 3) (hb : Fits b) (depth : Nat) (q : Bytes) :
    view (text depth) (writeString major b ++ q) = (Bytes.toString? b).map fun s => (s, q) := by
  have hhead : Takes (view (Reader.head depth)) (Head.write major b.length)
      (Head.sized major b.length, depth) := takes_head_write (by omega) hb depth
  have hbody : view (fun input => Head.take? b.length input >>= fun result => do
      let s ← utf8 result.1
      return (s, result.2)) (b ++ q) = (Bytes.toString? b).map fun s => (s, q) := by
    refine view_take?_bind _ (fun input rest => ?_) q
    rw [utf8]
    cases Bytes.toString? b <;> rfl
  rw [writeString, List.append_assoc, ← hbody]
  refine view_bind_of_takes hhead (fun input rest => ?_) _
  obtain rfl | rfl := hmajor
  · exact outcome_behind rest _
  · exact outcome_behind rest _

/-- So it is taken from a byte string that is UTF-8. -/
theorem takes_text_bytes {s : String} (hs : Fits (Bytes.ofString s)) (depth : Nat) :
    Takes (view (text depth)) (writeBytes (Bytes.ofString s)) s := by
  intro tail
  have h := view_text_string (.inl rfl) hs depth tail
  rwa [Bytes.toString?_ofString] at h

theorem ends_text (hmajor : major = 2 ∨ major = 3) (hb : Fits b) (depth : Nat) :
    Ends (view (text depth)) (writeString major b) :=
  ends_of_eq _ fun q => view_text_string hmajor hb depth q

/-- A byte string is read from a string of either kind. -/
theorem ends_bytes (hmajor : major = 2 ∨ major = 3) (hb : Fits b) (depth : Nat) :
    Ends (view (bytes depth)) (writeString major b) := by
  have hhead : Takes (view (Reader.head depth)) (Head.write major b.length)
      (Head.sized major b.length, depth) := takes_head_write (by omega) hb depth
  obtain rfl | rfl := hmajor
  · refine ends_of_eq (some b) fun q => ?_
    rw [writeString, List.append_assoc]
    refine (view_bind_of_takes hhead (fun input rest => outcome_behind rest _) _).trans ?_
    exact Head.takes_take? b q
  · refine ends_of_eq ((Bytes.toString? b).map fun _ => b) fun q => ?_
    rw [writeString, List.append_assoc]
    refine (view_bind_of_takes hhead (fun input rest => outcome_behind rest _) _).trans ?_
    refine view_take?_bind _ (fun input rest => ?_) q
    rw [utf8]
    cases Bytes.toString? b <;> rfl

/-- A string of either kind is skipped. -/
theorem ends_skip (hmajor : major = 2 ∨ major = 3) (hb : Fits b) (depth : Nat) :
    Ends (view (skip depth)) (writeString major b) := by
  have hhead : Takes (view Head.read) (Head.write major b.length) (Head.sized major b.length) :=
    Head.takes_write (by omega) hb
  obtain rfl | rfl := hmajor
  · refine ends_of_eq (some ()) fun q => ?_
    rw [writeString, List.append_assoc]
    cases depth <;>
      exact (view_bind_of_takes hhead (fun input rest => outcome_behind rest _) _).trans
        (view_take?_bind (some ()) (fun input rest => rfl) q)
  · refine ends_of_eq ((Bytes.toString? b).map fun _ => ()) fun q => ?_
    rw [writeString, List.append_assoc]
    have hbody : ∀ (input : Bytes) (rest : Remaining input), outcome
        (utf8 b >>= fun _ => pure ((), rest)) =
          ((Bytes.toString? b).map fun _ => ()).map fun u => (u, rest.val) := by
      intro input rest
      rw [utf8]
      cases Bytes.toString? b <;> rfl
    cases depth <;>
      exact (view_bind_of_takes hhead (fun input rest => outcome_behind rest _) _).trans
        (view_take?_bind _ hbody q)

end Reader

namespace Fields

variable {αs : List Type} {depth : Nat}

/-- The name of an entry is read from a text. -/
theorem view_key_string (fields : Fields αs) {name : Bytes} (hname : Fits name) (depth : Nat)
    (q : Bytes) : view (fields.key depth) (writeString 3 name ++ q) =
      (Bytes.toString? name).map fun _ => (fields.indexOf name, q) := by
  have hhead : Takes (view (Reader.head depth)) (Head.write 3 name.length)
      (.text name.length, depth) := Reader.takes_head_write (by decide) hname depth
  rw [writeString, List.append_assoc]
  refine (view_bind_of_takes hhead (fun input rest => Reader.outcome_behind rest _) _).trans ?_
  refine view_take?_bind ((Bytes.toString? name).map fun _ => fields.indexOf name)
    (fun input rest => ?_) q |>.trans ?_
  · dsimp only
    rw [Reader.utf8]
    cases Bytes.toString? name <;> rfl
  · cases Bytes.toString? name <;> rfl

/-! ## Slots -/

/-- Whether the field at an index has a value. -/
def found? : {αs : List Type} → Slots αs → Nat → Bool
  | [], (), _ => false
  | _ :: _, (a?, _), 0 => a?.isSome
  | _ :: _, (_, slots), i + 1 => found? slots i

/-- All fields have to be there. -/
def AllRequired : {αs : List Type} → Fields αs → Prop
  | _, nil => True
  | _, cons _ absent _ _ rest => absent = none ∧ rest.AllRequired

/-- All readers of the fields end a value at the end of a byte string. -/
def AllEnd (depth : Nat) (p : Bytes) : {αs : List Type} → Fields αs → Prop
  | _, nil => True
  | _, cons _ _ _ read rest => Ends (view (read depth)) p ∧ rest.AllEnd depth p

theorem found?_empty (fields : Fields αs) (i : Nat) : found? fields.empty i = false := by
  induction fields generalizing i with
  | nil => rfl
  | cons name absent beyond read rest ih =>
    cases i with
    | zero => rfl
    | succ i => exact ih i

/-- A record is complete only if all fields that have to be there are. -/
theorem close_found? {fields : Fields αs} (hrequired : fields.AllRequired) {slots : Slots αs}
    {values : Values αs} (h : fields.close slots = .ok values) {i : Nat}
    (hi : i < fields.names.length) : found? slots i = true := by
  induction fields generalizing i with
  | nil => exact nomatch hi
  | cons name absent beyond read rest ih =>
    obtain ⟨rfl, hrest⟩ := hrequired
    obtain ⟨a?, slots⟩ := slots
    cases a? with
    | none => exact nomatch h
    | some a =>
      obtain ⟨values', hvalues, -⟩ := bind_eq_ok.mp h
      cases i with
      | zero => rfl
      | succ i => exact ih hrest hvalues (Nat.lt_of_succ_lt_succ hi)

theorem ends_put {fields : Fields αs} {p : Bytes} (h : fields.AllEnd depth p)
    (hskip : Ends (view (Reader.skip depth)) p) (i : Nat) (slots : Slots αs) :
    Ends (view (fields.put i slots depth)) p := by
  induction fields generalizing i with
  | nil => exact hskip
  | cons name absent beyond read rest ih =>
    obtain ⟨hread, hrest⟩ := h
    obtain ⟨a?, slots⟩ := slots
    cases i with
    | zero =>
      cases a? with
      | some a => exact fun _ _ _ h => nomatch h
      | none => exact Reader.ends_map hread fun a => (some a, slots)
    | succ i => exact Reader.ends_map (ih hrest i slots) fun slots => (a?, slots)

/-- An entry gives a value to no field but its own. -/
theorem put_found? {fields : Fields αs} {i : Nat} {slots slots' : Slots αs} {input left : Bytes}
    (h : view (fields.put i slots depth) input = some (slots', left)) {j : Nat} (hj : j ≠ i) :
    found? slots' j = found? slots j := by
  induction fields generalizing i j left with
  | nil => rfl
  | cons name absent beyond read rest ih =>
    obtain ⟨a?, slots⟩ := slots
    cases i with
    | zero =>
      cases a? with
      | some a => exact nomatch h
      | none =>
        obtain ⟨a, -, rfl⟩ := put_zero_eq_some.mp h
        cases j with
        | zero => exact absurd rfl hj
        | succ j => rfl
    | succ i =>
      obtain ⟨slots'', hput, rfl⟩ := put_succ_eq_some.mp h
      cases j with
      | zero => rfl
      | succ j =>
        have hne : j ≠ i := fun heq => hj (congrArg (· + 1) heq)
        exact ih hput hne

/-! ## Entries -/

/-- Entries, with any byte strings as their names. -/
def writeEntries (entries : List (Bytes × Bytes)) : Bytes :=
  entries.flatMap fun e => writeString 3 e.1 ++ e.2

/-- Behind its name, an entry is read as the field of that name. -/
theorem put_of_entry {fields : Fields αs} {name p rest : Bytes} {slots slots' : Slots αs}
    (hname : Fits name)
    (h : view ((fields.key.andThen (fields.put · slots)) depth) (writeString 3 name ++ p) =
      some (slots', rest)) :
    view (fields.put (fields.indexOf name) slots depth) p = some (slots', rest) := by
  obtain ⟨i, middle, hkey, hput⟩ := view_entry_eq_some.mp h
  obtain ⟨_, -, heq⟩ := Option.map_eq_some_iff.mp
    ((view_key_string fields hname depth p).symm.trans hkey)
  obtain ⟨rfl, rfl⟩ := Prod.mk.inj heq
  exact hput

/-- One entry is read, and the rest is left. -/
theorem entry_eq_some {fields : Fields αs} {name p q rest : Bytes} {slots slots' : Slots αs}
    (hname : Fits name) (hends : fields.AllEnd depth p) (hskip : Ends (view (Reader.skip depth)) p)
    (h : view ((fields.key.andThen (fields.put · slots)) depth) (writeString 3 name ++ (p ++ q)) =
      some (slots', rest)) :
    rest = q ∧ ∀ j ≠ fields.indexOf name, found? slots' j = found? slots j := by
  have hput := put_of_entry hname h
  exact ⟨ends_put hends hskip _ _ _ _ _ hput, fun j hj => put_found? hput hj⟩

/-- The fields that have values after some entries had them before, or are named. -/
theorem fold_found? {fields : Fields αs} {entries : List (Bytes × Bytes)}
    (hentries : ∀ e ∈ entries, Fits e.1 ∧ fields.AllEnd depth e.2 ∧
      Ends (view (Reader.skip depth)) e.2) {slots slots' : Slots αs} {q rest : Bytes}
    (h : view ((Count.exactly entries.length).fold
      (fun slots => (fields.key.andThen (fields.put · slots)) depth) slots)
      (writeEntries entries ++ q) = some (slots', rest)) {j : Nat} (hj : found? slots' j = true) :
    found? slots j = true ∨ ∃ e ∈ entries, fields.indexOf e.1 = j := by
  induction entries generalizing slots with
  | nil =>
    obtain ⟨rfl, -⟩ := Prod.mk.inj (Option.some.inj ((Count.view_fold_finished rfl).symm.trans h))
    exact .inl hj
  | cons e entries ih =>
    obtain ⟨⟨hname, hends, hskip⟩, hentries⟩ := List.forall_mem_cons.mp hentries
    rw [writeEntries, List.flatMap_cons, List.append_assoc, List.append_assoc] at h
    obtain ⟨slots'', middle, hentry, h⟩ := Count.view_fold_succ_eq_some.mp h
    obtain ⟨rfl, hsame⟩ := entry_eq_some hname hends hskip hentry
    obtain hfound | ⟨e', he', hindex⟩ := ih hentries h
    · by_cases hindex : j = fields.indexOf e.1
      · exact .inr ⟨e, List.mem_cons_self, hindex.symm⟩
      · exact .inl (hsame j hindex ▸ hfound)
    · exact .inr ⟨e', List.mem_cons_of_mem e he', hindex⟩

/-- A name that is found is that of the field. -/
theorem eq_of_indexOf {fields : Fields αs} {key : Bytes}
    (h : fields.indexOf key < fields.names.length) :
    key = Bytes.ofString fields.names[fields.indexOf key] := by
  induction fields with
  | nil => exact nomatch h
  | cons name absent beyond read rest ih =>
    by_cases hname : Bytes.ofString name = key
    · simp [indexOf, names, hname]
    · simp only [indexOf, if_neg hname, names, List.length_cons] at h ⊢
      exact ih (Nat.lt_of_succ_lt_succ h)

/-- A record that is read was read entry by entry. -/
theorem exists_fold_of_read {fields : Fields αs} {n : Nat} (hcount : n < sizeLimit)
    {values : Values αs} {p rest : Bytes}
    (h : view (fields.read (depth + 1)) (Head.write 5 n ++ p) = some (values, rest)) :
    ∃ slots left, view ((Count.exactly n).fold
      (fun slots => (fields.key.andThen (fields.put · slots)) depth) fields.empty) p =
        some (slots, left) ∧ fields.close slots = .ok values := by
  have hhead : Takes (view (Reader.head (depth + 1))) (Head.write 5 n) (.map n, depth + 1) :=
    Reader.takes_head_write (by decide) hcount _
  have hread := (view_bind_of_takes hhead (fun input rest => Reader.outcome_behind rest _)
    p).symm.trans h
  obtain ⟨slots, left, hfold, hclose⟩ := view_bind_eq_some.mp hread
  obtain ⟨_, hclose⟩ := outcome_eq_some.mp hclose
  obtain ⟨values', hvalues, heq⟩ := bind_eq_ok.mp hclose
  obtain ⟨rfl, -⟩ := Prod.mk.inj (Except.ok.inj heq)
  exact ⟨slots, left.val, view_eq_some.mpr ⟨left.property, hfold⟩, hvalues⟩

/-- A record that is read has an entry with the name of each field. -/
theorem exists_entry_of_read {fields : Fields αs} (hrequired : fields.AllRequired)
    {entries : List (Bytes × Bytes)} (hcount : entries.length < sizeLimit)
    (hentries : ∀ e ∈ entries, Fits e.1 ∧ fields.AllEnd depth e.2 ∧
      Ends (view (Reader.skip depth)) e.2) {values : Values αs} {q rest : Bytes}
    (h : view (fields.read (depth + 1))
      (Head.write 5 entries.length ++ (writeEntries entries ++ q)) = some (values, rest)) :
    ∀ name ∈ fields.names, ∃ e ∈ entries, e.1 = Bytes.ofString name := by
  obtain ⟨slots, left, hfold, hvalues⟩ := exists_fold_of_read hcount h
  intro name hname
  obtain ⟨i, hi, rfl⟩ := List.mem_iff_getElem.mp hname
  obtain hempty | ⟨e, he, hindex⟩ := fold_found? hentries hfold
    (close_found? hrequired hvalues hi)
  · exact nomatch (found?_empty fields i).symm.trans hempty
  · subst hindex
    exact ⟨e, he, eq_of_indexOf hi⟩

/-- If the first entry is for the first field, its value is read. -/
theorem exists_value_of_read {name : String} {absent beyond : Option α} {read : Reader α}
    {fields : Fields αs} {n : Nat} (hcount : n + 1 < sizeLimit)
    (hname : Fits (Bytes.ofString name)) {values : Values (α :: αs)} {p rest : Bytes}
    (h : view ((cons name absent beyond read fields).read (depth + 1))
      (Head.write 5 (n + 1) ++ (writeText name ++ p)) = some (values, rest)) :
    ∃ a left, view (read depth) p = some (a, left) := by
  obtain ⟨_, _, hfold, -⟩ := exists_fold_of_read hcount h
  obtain ⟨slots, middle, hentry, -⟩ := Count.view_fold_succ_eq_some.mp hfold
  have hput := put_of_entry hname hentry
  rw [indexOf, if_pos rfl] at hput
  obtain ⟨a, ha, -⟩ := put_zero_eq_some.mp hput
  exact ⟨a, middle, ha⟩

end Fields

end Cbor

end SealedTunnel
